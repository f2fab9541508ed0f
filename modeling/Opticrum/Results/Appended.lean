import Opticrum.Contract.Construct
import Opticrum.Contract.View
import Opticrum.Results.RentBound

/-!
# What may be appended to a transaction

A transaction is rarely sent as an instruction leaves it: others append inputs that pay
the fee, an output for the change, the deps of the locks that sign, headers.  `Appends`
says what they may not do: bring in a party that has not signed, the first Opticrum
output, an entry that names the channel, the first header, or a header the script had
asked for in vain.  Everything else leaves the verdict as it is, also where it is an
error or an abort.

## How it is proved

`Appends` is a condition on the two lists of entries, and `SameView` is about what the script
finds in them.  `Appends.sameView` goes from the one to the other, field by field:

* the group may grow at its end, and its first cell stays;
* the first Opticrum output stays, or there is none before and after;
* a party has signed in both transactions or in none, `Appends.signed_iff`;
* the channel is found at the same place, `Appends.channelCellAt_eq`.

The last is the delicate one, as an entry appended to the raw list appends an unknown number of
cells to the resolved one.  It uses that no entry resolves to nothing: then the resolved list is
at least as long as the raw one, and what is appended cannot fill a position that was looked
at.
-/

namespace Opticrum

open Rust Ckb

section Appended

variable [ScriptHash]

/-- `tx'` is `tx` with something appended to its lists that the script `lock` does not
look at. -/
structure Appends (lock : Script) (tx tx' : Transaction) : Prop where
  /-- An appended input signs for no party that has not signed. -/
  inputs : ∃ more, tx'.inputs = tx.inputs ++ more ∧
    ∀ p ∈ more, ∀ c ∈ decodedCells lock tx, calcScriptHash p.lock ∈ partiesOf c →
      Signed tx (calcScriptHash p.lock)
  outputs : ∃ more, tx'.outputs = tx.outputs ++ more ∧
    (opticrumOutput? lock.codeHash tx = none →
      ∀ o ∈ more, isOpticrumLock lock.codeHash o.lock = false)
  /-- An appended entry names no channel that is not listed. -/
  cellDeps : ∃ more, tx'.cellDeps = tx.cellDeps ++ more ∧
    ∀ dep ∈ more, ∀ c ∈ decodedCells lock tx, ∀ o ∈ channelOf? c,
      o.isAt dep.dep.outPoint = true → ChannelListed tx o
  /-- An appended header is not the first, and names no block the script asks for. -/
  headerDeps : ∃ more, tx'.headerDeps = tx.headerDeps ++ more ∧
    (tx.headerDeps = [] → more = []) ∧
    ∀ h ∈ more, ∀ c ∈ datedCells lock tx, h.hash = c.header.hash → tx.hasHeader c.header

variable {lock : Script} {tx tx' : Transaction}

/-- A party has signed in both or in none: the inputs that are appended sign for nobody the two
cells name. -/
theorem Appends.signed_iff (h : Appends lock tx tx') {c : Cell} (hc : c ∈ decodedCells lock tx)
    {lockHash : Byte32} (hparty : lockHash ∈ partiesOf c) :
    Signed tx lockHash ↔ Signed tx' lockHash := by
  obtain ⟨more, hinputs, hmore⟩ := h.inputs
  constructor
  · rintro ⟨p, hp, rfl⟩
    exact ⟨p, hinputs ▸ List.mem_append_left _ hp, rfl⟩
  · rintro ⟨p, hp, rfl⟩
    rw [hinputs, List.mem_append] at hp
    rcases hp with hp | hp
    · exact ⟨p, hp, rfl⟩
    · exact hmore p hp c hc hparty

omit [ScriptHash] in
/-- Where every entry resolves to something, raw entries are no more than resolved ones. -/
theorem length_le_length_flatMap_cells {deps : List ResolvedDep}
    (hresolved : ∀ dep ∈ deps, dep.cells ≠ []) :
    deps.length ≤ (deps.flatMap ResolvedDep.cells).length := by
  induction deps with
  | nil => exact Nat.zero_le _
  | cons dep deps ih =>
      obtain ⟨hdep, hdeps⟩ := List.forall_mem_cons.mp hresolved
      have hpos := List.length_pos_iff.mpr hdep
      have hrest := ih hdeps
      rw [List.length_cons, List.flatMap_cons, List.length_append]
      omega

/-- The channel is found where it was, or is as absent as it was. -/
theorem Appends.channelCellAt_eq (h : Appends lock tx tx')
    (hresolved : ∀ dep ∈ tx.cellDeps, dep.cells ≠ []) {c : Cell}
    (hc : c ∈ decodedCells lock tx) {o : OutPoint} (ho : o ∈ channelOf? c) :
    channelCellAt tx o = channelCellAt tx' o := by
  obtain ⟨more, hdeps, hmore⟩ := h.cellDeps
  have hraw : tx'.rawCellDeps = tx.rawCellDeps ++ more.map ResolvedDep.dep := by
    rw [Transaction.rawCellDeps, hdeps, List.map_append, Transaction.rawCellDeps]
  have hcells : tx'.resolvedCellDeps = tx.resolvedCellDeps ++ more.flatMap ResolvedDep.cells := by
    rw [Transaction.resolvedCellDeps, hdeps, List.flatMap_append, Transaction.resolvedCellDeps]
  rw [channelCellAt, channelCellAt, hraw, hcells, List.findIdx?_append]
  cases hi : tx.rawCellDeps.findIdx? fun dep => o.isAt dep.outPoint with
  | some i =>
      obtain ⟨hlt, -⟩ := List.findIdx?_eq_some_iff_getElem.mp hi
      have hle : tx.rawCellDeps.length ≤ tx.resolvedCellDeps.length := by
        rw [Transaction.rawCellDeps, List.length_map]
        exact length_le_length_flatMap_cells hresolved
      simp [List.getElem?_append_left (hlt.trans_le hle)]
  | none =>
      -- an appended entry that named the channel would repeat an earlier one
      have hnone : (more.map ResolvedDep.dep).findIdx? (fun dep => o.isAt dep.outPoint) = none := by
        rw [List.findIdx?_eq_none_iff]
        intro dep hdep
        obtain ⟨entry, hentry, rfl⟩ := List.mem_map.mp hdep
        rw [Bool.eq_false_iff]
        intro hat
        obtain ⟨earlier, hearlier, hnamed⟩ := hmore entry hentry c hc o ho hat
        have := List.findIdx?_eq_none_iff.mp hi earlier hearlier
        rw [hnamed] at this
        exact absurd this (by decide)
      simp [hnone]

/-- A transaction looks the same to the script with what is appended. -/
theorem Appends.sameView (h : Appends lock tx tx') (hruns : tx.groupInputs lock ≠ [])
    (hresolved : ∀ dep ∈ tx.cellDeps, dep.cells ≠ []) : SameView lock tx tx' where
  first := by
    obtain ⟨more, hinputs, -⟩ := h.inputs
    rw [Transaction.groupInputs, Transaction.groupInputs, hinputs, List.filter_append]
    exact (List.head?_append_of_ne_nil _ hruns).symm
  output := by
    obtain ⟨more, houtputs, hmore⟩ := h.outputs
    rw [opticrumOutput?, opticrumOutput?, houtputs, List.find?_append]
    cases hout : tx.outputs.find? fun o => isOpticrumLock lock.codeHash o.lock with
    | some o => rfl
    | none =>
        rw [Option.none_or, eq_comm, List.find?_eq_none]
        intro o ho
        rw [hmore hout o ho]
        exact Bool.false_ne_true
  signed c hc lockHash hparty := h.signed_iff hc hparty
  channel c hc o ho := h.channelCellAt_eq hresolved hc ho
  tip := by
    obtain ⟨more, hheaders, hempty, -⟩ := h.headerDeps
    rw [hheaders]
    cases hnil : tx.headerDeps with
    | nil => rw [hempty hnil, List.append_nil]
    | cons tip rest => rfl
  headers c hc := by
    obtain ⟨more, hheaders, -, hmore⟩ := h.headerDeps
    rw [Transaction.hasHeader, Transaction.hasHeader, hheaders, List.any_append]
    -- an appended header matters only where the script asks for its block
    cases hasked : more.any (·.hash = c.header.hash) with
    | false => rw [Bool.or_false]
    | true =>
        obtain ⟨header, hheader, hhash⟩ := List.any_eq_true.mp hasked
        have hhas : tx.hasHeader c.header = true :=
          hmore header hheader c hc (by simpa using hhash)
        rw [Bool.or_true]
        exact hhas

/-- **Appending.** A script that runs on a transaction, every dep of which resolves, returns the
same with what is appended: the same acceptance, the same error, the same abort.

That no dep is empty is needed for the cells behind the raw entries: an entry that resolves to
nothing leaves a position free, and something appended could fill it. -/
theorem verdict_of_appends (h : Appends lock tx tx') (hruns : tx.groupInputs lock ≠ [])
    (hresolved : ∀ dep ∈ tx.cellDeps, dep.cells ≠ []) :
    run ⟨tx, lock⟩ = run ⟨tx', lock⟩ :=
  (h.sameView hruns hresolved).run_eq

end Appended

/-! ## In the market -/

namespace Market

/-- Another cell of the seller's. -/
def sellerFeeCell : LiveCell :=
  partyCell sellerLock 50000000 ⟨Vector.replicate 32 0x5f, 1⟩ (headerAt 2)

/-- An extraction with the other cell, to pay the fee, and with a dep group. -/
def paidExtraction : Transaction :=
  ⟨[fresh.toLiveCell, sellerCell, sellerFeeCell],
    [extractedOnce.toCell, sellerCell.toCell, sellerCell.toCell],
    [.code channelCell, .depGroup ⟨Vector.replicate 32 0x71, 0⟩ [sellerCell]],
    [headerAt 1050, fresh.header]⟩

/-- The extraction consumes one cell under its lock. -/
theorem groupInputs_extractTx_fresh (o : Cell) (tip : ℕ) :
    (extractTx fresh o tip).groupInputs fresh.lock = [fresh.toLiveCell] := by
  have hparty : isOpticrumLock codeHash sellerCell.lock = false := by decide
  exact groupInputs_of_sole (opticrumInputs_spend isOpticrumLock_matchCell hparty)

/-- A run on the extraction decodes the match it consumes and the match it leaves. -/
theorem decodedCells_extractTx_fresh (tip : ℕ) :
    decodedCells fresh.lock (extractTx fresh extractedOnce.toCell tip) =
      [fresh.toCell, extractedOnce.toCell] := by
  have hout : isOpticrumLock fresh.lock.codeHash extractedOnce.lock = true :=
    isOpticrumLock_matchCell
  have houtput : opticrumOutput? fresh.lock.codeHash (extractTx fresh extractedOnce.toCell tip) =
      some extractedOnce.toCell := by
    simp [opticrumOutput?, extractTx, spend, hout]
  rw [decodedCells, groupInputs_extractTx_fresh, houtput]
  rfl

/-- Another cell of the seller, an output and a dep group are appended to it, and none of them
is looked at. -/
theorem appends_paidExtraction :
    Appends fresh.lock (extractTx fresh extractedOnce.toCell 1050) paidExtraction where
  inputs := by
    refine ⟨[sellerFeeCell], rfl, ?_⟩
    intro p hp c _ _
    obtain rfl := List.mem_singleton.mp hp
    exact ⟨sellerCell, by simp [extractTx, spend], rfl⟩
  outputs := by
    refine ⟨[sellerCell.toCell], rfl, ?_⟩
    intro _ o ho
    obtain rfl := List.mem_singleton.mp ho
    rfl
  cellDeps := by
    refine ⟨_, rfl, ?_⟩
    intro dep hdep c hc o ho hat
    have hnamed : ∀ m : MatchCell, m.args = matchArgs → o ∈ channelOf? m.toCell →
        o = matchArgs.channelOutpoint := by
      intro m hargs hm
      rw [m.decodes.channelOf?_eq, hargs] at hm
      exact (Option.some.inj hm).symm
    rw [decodedCells_extractTx_fresh] at hc
    obtain rfl : o = matchArgs.channelOutpoint := by
      rcases List.mem_pair.mp hc with rfl | rfl
      · exact hnamed fresh rfl ho
      · exact hnamed extractedOnce rfl ho
    exact channelListed_extractTx _ _ _
  headerDeps := ⟨[], by simp [paidExtraction, extractTx, spend], by simp, by simp⟩

/-- So the script returns the same for both. -/
theorem paidExtraction_verdict :
    run ⟨extractTx fresh extractedOnce.toCell 1050, fresh.lock⟩ =
      run ⟨paidExtraction, fresh.lock⟩ := by
  refine verdict_of_appends appends_paidExtraction ?_ ?_
  · rw [groupInputs_extractTx_fresh]
    exact List.cons_ne_nil _ _
  · intro dep hdep
    obtain rfl := List.mem_singleton.mp hdep
    exact List.cons_ne_nil _ _

end Market

end Opticrum
