import Opticrum.Contract.Construct
import Opticrum.Foundation.Expansion

/-!
# The channel that is named and the channel that is checked

`order_match` looks for the channel's out point in the *raw* cell deps and then
loads a cell at the index it found.  Loading goes through the *resolved* cell
deps, where a `DepGroup` entry has been replaced by its members.  The two indices
agree up to the first entry that does not resolve to one cell.

The shape of the cell deps decides: `inspectsNamed_iff` says for which shapes, and
which position of the naming entry, every accepted match has inspected the
channel it names.

## Both directions

`Aligned` is the shape in which raw and resolved index agree, and for it
`inspectsNamed_of_aligned` shows that the cell loaded at the index is the one named.  If the
index lies past all resolved cells nothing is loaded and nothing is accepted, so the condition
holds for want of a case.

For every other shape `matchAt` builds a transaction with exactly these deps.  Its entries
resolve to funding cells at out points of their own, large enough for the order, so whichever
cell the script loads passes all the checks; `not_inspectsNamed` reads off that it is another
one than the channel that is named.
-/

namespace Opticrum

open Rust Ckb Expansion

/-! ## Shapes -/

/-- The shape of an entry of the cell deps: what the script cannot see in the raw entry, but
what decides where its cells are. -/
inductive DepShape where
  | code
  | depGroup (members : ℕ)
  deriving DecidableEq, Repr

/-- How many cells an entry resolves to. -/
def DepShape.width : DepShape → ℕ
  | .code => 1
  | .depGroup members => members

/-- All that the positions depend on: a single cell, or a group of so many.  Out points and
contents are forgotten. -/
def shapeOf (dep : ResolvedDep) : DepShape :=
  match dep.dep.depType with
  | .code => .code
  | .depGroup => .depGroup dep.cells.length

/-- The shapes of the cell deps of a transaction. -/
def layout (tx : Transaction) : List DepShape := tx.cellDeps.map shapeOf

/-- The resolved index at which the cells of entry `i` start. -/
def start (L : List DepShape) (i : ℕ) : ℕ := ((L.take i).map DepShape.width).sum

/-- How many cells the entries resolve to. -/
def extent (L : List DepShape) : ℕ := (L.map DepShape.width).sum

/-- An entry takes as many positions among the resolved deps as its shape says. -/
theorem width_shapeOf (dep : ResolvedDep) : (shapeOf dep).width = dep.cells.length := by
  unfold shapeOf
  cases h : dep.dep.depType with
  | code =>
      obtain ⟨c, hcells, -⟩ := dep.code_cell h
      simp [DepShape.width, hcells]
  | depGroup => rfl

/-- The start of an entry is where its expansion starts. -/
theorem start_layout (tx : Transaction) (i : ℕ) :
    start (layout tx) i = offset ResolvedDep.cells tx.cellDeps i := by
  simp [start, layout, offset, List.length_flatMap, ← List.map_take, width_shapeOf,
    Function.comp_def]

theorem extent_layout (tx : Transaction) :
    extent (layout tx) = tx.resolvedCellDeps.length := by
  simp [extent, layout, Transaction.resolvedCellDeps, List.length_flatMap, width_shapeOf,
    Function.comp_def]

/-! ## The inspected channel -/

/-- The contract accepts `tx`, which matches the order in the inspected cell `c`
into a Match cell with args `ma`. -/
structure OrderMatched [ScriptHash] (codeHash : Byte32) (tx : Transaction) (c : LiveCell)
    (ma : MatchArgs) : Prop where
  accepted : AcceptedBy codeHash tx
  opticrum : isOpticrumLock codeHash c.lock = true
  inspected : ∃ rest, tx.groupInputs c.lock = c :: rest
  order : ∃ a d, IsOrder c.toCell a d
  output : ∃ o md, opticrumOutput? codeHash tx = some o ∧ IsMatch o ma md

/-- With entries of shape `L` whose entry `i` is the first to name the channel, the
cell that is inspected is the channel cell, has a funding lock, and is younger
than the order. -/
def InspectsNamed (L : List DepShape) (i : ℕ) : Prop :=
  ∀ [ScriptHash] (codeHash : Byte32) (tx : Transaction) (c : LiveCell) (ma : MatchArgs),
    OrderMatched codeHash tx c ma → layout tx = L →
      tx.rawCellDeps.findIdx? (fun dep => ma.channelOutpoint.isAt dep.outPoint) = some i →
        ∃ channel, tx.resolvedCellDeps[i]? = some channel ∧
          channel.outPoint = ma.channelOutpoint.packed ∧
          isFiberFundingContract channel.lock.codeHash = true ∧ channel.lock.hashType = .type ∧
          c.block < channel.block

/-- Entry `i` is a `Code` entry, and its cell sits at the resolved index `i`.  The entries
before it need not all be `Code` entries, as an empty group and a group of two make up for each
other. -/
def Aligned (L : List DepShape) (i : ℕ) : Prop := L[i]? = some .code ∧ start L i = i

/-- Of a cell that meets the demands the lock is a funding lock, before anything else is
compared. -/
theorem lock_of_channelMeets {cell : Cell} {minCapacity : Option U64}
    {minXudtAmount : Option U128} {xudtTypeScript : Option (Option Script)}
    (h : channelMeets cell minCapacity minXudtAmount xudtTypeScript = .ok true) :
    isFiberFundingContract cell.lock.codeHash = true ∧ cell.lock.hashType = .type := by
  by_contra hnot
  rw [channelMeets, if_pos hnot] at h
  exact absurd (Except.ok.inj h) (by decide)

/-- What every accepted match has inspected. -/
theorem OrderMatched.inspects [ScriptHash] {codeHash : Byte32} {tx : Transaction} {c : LiveCell}
    {ma : MatchArgs} (h : OrderMatched codeHash tx c ma) {i : ℕ}
    (hi : tx.rawCellDeps.findIdx? (fun dep => ma.channelOutpoint.isAt dep.outPoint) = some i) :
    ∃ channel, tx.resolvedCellDeps[i]? = some channel ∧
      isFiberFundingContract channel.lock.codeHash = true ∧ channel.lock.hashType = .type ∧
      c.block < channel.block := by
  obtain ⟨rest, hgroup⟩ := h.inspected
  obtain ⟨a, d, horder⟩ := h.order
  obtain ⟨o, md, hout, hmatch⟩ := h.output
  have htransition := h.accepted.transition h.opticrum hgroup
  rw [hout] at htransition
  cases htransition with
  | orderMatch old new args xudt listed inspected meets signed rate clock pool amount _ _ younger =>
      obtain ⟨rfl, rfl⟩ := new.unique hmatch
      obtain rfl := Option.some.inj (listed.symm.trans hi)
      obtain ⟨hfiber, htype⟩ := lock_of_channelMeets meets
      exact ⟨_, inspected, hfiber, htype, younger⟩
  | sellerExtract old => exact absurd horder old.not_isOrder
  | buyerUpdate old => exact absurd horder old.not_isOrder

/-- The first entry that names the channel. -/
theorem dep_of_findIdx? {tx : Transaction} {ma : MatchArgs} {i : ℕ}
    (hi : tx.rawCellDeps.findIdx? (fun dep => ma.channelOutpoint.isAt dep.outPoint) = some i) :
    ∃ dep, tx.cellDeps[i]? = some dep ∧ dep.dep.outPoint = ma.channelOutpoint.packed := by
  obtain ⟨hlt, hat, -⟩ := List.findIdx?_eq_some_iff_getElem.mp hi
  simp only [Transaction.rawCellDeps, List.length_map, List.getElem_map] at hlt hat
  exact ⟨tx.cellDeps[i], List.getElem?_eq_getElem hlt, OutPoint.isAt_iff.mp hat⟩

/-- In an aligned position the inspected cell is the named one. -/
theorem inspectsNamed_of_aligned {L : List DepShape} {i : ℕ} (haligned : Aligned L i) :
    InspectsNamed L i := by
  intro _ codeHash tx c ma h hlayout hi
  obtain ⟨hcode, hstart⟩ := haligned
  obtain ⟨channel, hchannel, hrest⟩ := h.inspects hi
  obtain ⟨dep, hdep, hpoint⟩ := dep_of_findIdx? hi
  rw [← hlayout, layout, List.getElem?_map, hdep, Option.map_some, Option.some.injEq] at hcode
  have hkind : dep.dep.depType = .code := by
    unfold shapeOf at hcode
    cases hk : dep.dep.depType with
    | code => rfl
    | depGroup => simp [hk] at hcode
  obtain ⟨cell, hcells, hcell⟩ := dep.code_cell hkind
  have hresolved : tx.resolvedCellDeps[i]? = some cell := by
    have hitem :=
      getElem?_offset (f := ResolvedDep.cells) (k := 0) (b := cell) hdep (by simp [hcells])
    rwa [← start_layout, hlayout, hstart, Nat.add_zero] at hitem
  obtain rfl := Option.some.inj (hresolved.symm.trans hchannel)
  exact ⟨cell, hresolved, hcell.trans hpoint, hrest⟩

/-- Past the resolved cells nothing is accepted. -/
theorem inspectsNamed_of_extent_le {L : List DepShape} {i : ℕ} (hle : extent L ≤ i) :
    InspectsNamed L i := by
  intro _ codeHash tx c ma h hlayout hi
  obtain ⟨channel, hchannel, -⟩ := h.inspects hi
  have hlt := (List.getElem?_eq_some_iff.mp hchannel).1
  rw [← extent_layout, hlayout] at hlt
  exact absurd hlt (Nat.not_lt.mpr hle)

/-! ## Misaligned positions -/

namespace Market

/-- A cell at the out point the match names: no channel, and older than the order. -/
def namedCell : LiveCell :=
  partyCell sellerLock 10000000000 matchArgs.channelOutpoint.packed (headerAt 100)

/-- Channels at other out points. -/
def otherChannel (tag : UInt8) (k : ℕ) : LiveCell :=
  { channelCell with outPoint := ⟨Vector.replicate 32 tag, BitVec.ofNat 32 k⟩ }

/-- Entry `j` of the cell deps, where entry `i` is to name the channel. -/
def entryAt (i j : ℕ) : DepShape → ResolvedDep
  | .code => .code (if j = i then namedCell else otherChannel 0xd0 j)
  | .depGroup members =>
      .depGroup
        (if j = i then matchArgs.channelOutpoint.packed
          else ⟨Vector.replicate 32 0xe0, BitVec.ofNat 32 j⟩)
        ((List.range members).map (otherChannel 0xd1))

/-- A match whose cell deps have shape `L` and whose entry `i` names the channel. -/
def matchAt (L : List DepShape) (i : ℕ) : Transaction :=
  spend (order 0).toLiveCell sellerCell [matched, sellerCell.toCell] (L.mapIdx (entryAt i))
    [headerAt 500, headerAt 900]

/-- Cells under another hash are not the channel. -/
theorem outPoint_ne {tag : UInt8} (htag : tag ≠ 0xc0) (index : U32) :
    (⟨Vector.replicate 32 tag, index⟩ : Ckb.OutPoint) ≠ matchArgs.channelOutpoint.packed := by
  intro h
  have hhash : Vector.replicate 32 tag = Vector.replicate 32 (0xc0 : UInt8) :=
    congrArg Ckb.OutPoint.txHash h
  exact htag (by simpa using hhash)

theorem shapeOf_entryAt (i j : ℕ) (shape : DepShape) : shapeOf (entryAt i j shape) = shape := by
  cases shape with
  | code => rfl
  | depGroup members => simp [entryAt, shapeOf, ResolvedDep.depGroup]

/-- Only entry `i` is at the out point of the channel. -/
theorem outPoint_entryAt (i j : ℕ) (shape : DepShape) :
    (entryAt i j shape).dep.outPoint = matchArgs.channelOutpoint.packed ↔ j = i := by
  by_cases hj : j = i
  · refine iff_of_true ?_ hj
    cases shape with
    | code => simp [entryAt, ResolvedDep.code, hj, namedCell, partyCell]
    | depGroup members => simp [entryAt, ResolvedDep.depGroup, hj]
  · refine iff_of_false ?_ hj
    cases shape with
    | code =>
        simp only [entryAt, ResolvedDep.code, hj, if_false]
        exact outPoint_ne (by decide) _
    | depGroup members =>
        simp only [entryAt, ResolvedDep.depGroup, hj, if_false]
        exact outPoint_ne (by decide) _

/-- What an entry resolves to: the named cell, or channels elsewhere. -/
theorem mem_cells_entryAt {i j : ℕ} {shape : DepShape} {c : LiveCell}
    (hc : c ∈ (entryAt i j shape).cells) :
    (j = i ∧ shape = .code) ∨ ∃ tag k, tag ≠ 0xc0 ∧ c = otherChannel tag k := by
  cases shape with
  | code =>
      by_cases hj : j = i
      · exact .inl ⟨hj, rfl⟩
      · obtain rfl : c = otherChannel 0xd0 j := by
          simpa [entryAt, ResolvedDep.code, hj] using hc
        exact .inr ⟨_, _, by decide, rfl⟩
  | depGroup members =>
      obtain ⟨k, -, rfl⟩ := List.mem_map.mp hc
      exact .inr ⟨_, _, by decide, rfl⟩

/-- So the transaction has the layout asked for. -/
theorem layout_matchAt (L : List DepShape) (i : ℕ) : layout (matchAt L i) = L := by
  rw [layout, matchAt, spend]
  refine List.ext_getElem? fun j => ?_
  rw [List.getElem?_map, List.getElem?_mapIdx, Option.map_map]
  cases L[j]? with
  | none => rfl
  | some shape => simp [shapeOf_entryAt]

/-- And its entry `i` is the first, and the only one, to name the channel. -/
theorem findIdx?_matchAt {L : List DepShape} {i : ℕ} (hi : i < L.length) :
    (matchAt L i).rawCellDeps.findIdx?
      (fun dep => matchArgs.channelOutpoint.isAt dep.outPoint) = some i := by
  rw [List.findIdx?_eq_some_iff_getElem]
  have hraw : (matchAt L i).rawCellDeps = (L.mapIdx (entryAt i)).map ResolvedDep.dep := rfl
  refine ⟨by simpa [hraw] using hi, ?_, fun j hji => ?_⟩
  · simp [hraw, OutPoint.isAt_iff, outPoint_entryAt]
  · simp only [hraw, List.getElem_map, List.getElem_mapIdx, OutPoint.isAt_iff, outPoint_entryAt]
    omega

/-- When the cell that is resolved at the raw position is some other channel, the match is
accepted all the same: the script inspects that one. -/
theorem orderMatched_matchAt {L : List DepShape} {i : ℕ} (hi : i < L.length) {tag : UInt8} {k : ℕ}
    (hinspected : (matchAt L i).resolvedCellDeps[i]? = some (otherChannel tag k)) :
    OrderMatched codeHash (matchAt L i) (order 0).toLiveCell matchArgs := by
  have hsole : opticrumInputs codeHash (matchAt L i) = [(order 0).toLiveCell] :=
    opticrumInputs_spend isOpticrumLock_orderCell (by decide)
  have hout : opticrumOutput? codeHash (matchAt L i) = some matched := by
    have hlock : isOpticrumLock codeHash matched.lock = true := isOpticrumLock_opticrumLock _ _
    simp [opticrumOutput?, matchAt, spend, hlock]
  have hsigned : Signed (matchAt L i) sellerLockHash :=
    signed_spend.mpr (.inr calcScriptHash_sellerLock)
  refine ⟨acceptedBy_of_transition hsole (List.forall_mem_nil _) orderCell_fits (fun o ho => ?_) ?_,
    isOpticrumLock_orderCell, ⟨[], groupInputs_of_sole hsole⟩, ⟨_, _, isOrder_orderOutput⟩,
    ⟨_, _, hout, isMatch_matchOutput⟩⟩
  · obtain rfl := Option.some.inj (hout.symm.trans ho)
    exact matchOutput_fits
  · rw [hout]
    exact transition_order (findIdx?_matchAt hi) hinspected rfl rfl rfl hsigned 0

/-- In a misaligned position a match is accepted that has inspected some other
channel. -/
theorem not_inspectsNamed {L : List DepShape} {i : ℕ} (hi : i < L.length) (hlt : i < extent L)
    (hnot : ¬ Aligned L i) : ¬ InspectsNamed L i := by
  intro h
  have hresolved : i < (matchAt L i).resolvedCellDeps.length := by
    rwa [← extent_layout, layout_matchAt]
  obtain ⟨b, hb⟩ : ∃ b, (matchAt L i).resolvedCellDeps[i]? = some b :=
    ⟨_, List.getElem?_eq_getElem hresolved⟩
  obtain ⟨j, m, dep, hdep, hitem, hposition⟩ := exists_entry_of_getElem? hb
  have hentry : ∃ shape, L[j]? = some shape ∧ entryAt i j shape = dep := by
    have hmapped : (L.mapIdx (entryAt i))[j]? = some dep := hdep
    rwa [List.getElem?_mapIdx, Option.map_eq_some_iff] at hmapped
  obtain ⟨shape, hshape, rfl⟩ := hentry
  rcases mem_cells_entryAt (List.mem_of_getElem? hitem) with ⟨rfl, rfl⟩ | ⟨tag, k, htag, rfl⟩
  · -- the item is the cell of the naming `Code` entry: the position is aligned after all
    have hzero : m = 0 := by
      have hm := (List.getElem?_eq_some_iff.mp hitem).1
      simpa [entryAt, ResolvedDep.code] using hm
    rw [← start_layout, layout_matchAt, hzero] at hposition
    exact hnot ⟨hshape, hposition.symm⟩
  · obtain ⟨channel, hchannel, hpoint, -⟩ := @h scriptHash _ _ _ _ (orderMatched_matchAt hi hb)
      (layout_matchAt L i) (findIdx?_matchAt hi)
    obtain rfl := Option.some.inj (hb.symm.trans hchannel)
    exact outPoint_ne htag _ hpoint

/-- Behind a group of two cells the second member is inspected in place of the cell
the match names. -/
theorem matchAt_behind_group :
    OrderMatched codeHash (matchAt [.depGroup 2, .code] 1) (order 0).toLiveCell matchArgs ∧
      (matchAt [.depGroup 2, .code] 1).rawCellDeps.findIdx?
        (fun dep => matchArgs.channelOutpoint.isAt dep.outPoint) = some 1 ∧
      (matchAt [.depGroup 2, .code] 1).resolvedCellDeps[1]? = some (otherChannel 0xd1 1) ∧
      (otherChannel 0xd1 1).outPoint ≠ matchArgs.channelOutpoint.packed ∧
      (matchAt [.depGroup 2, .code] 1).resolvedCellDeps[2]? = some namedCell ∧
      isFiberFundingContract namedCell.lock.codeHash = false ∧
      namedCell.block < (order 0).block := by
  have hinspected :
      (matchAt [.depGroup 2, .code] 1).resolvedCellDeps[1]? = some (otherChannel 0xd1 1) := rfl
  have hnamed : namedCell.block = 100 := headerAt_number (by decide)
  have horder : (order 0).block = 500 := orderCell_block (by decide)
  refine ⟨orderMatched_matchAt (by decide) hinspected, findIdx?_matchAt (by decide), hinspected,
    outPoint_ne (by decide) _, rfl, by decide, ?_⟩
  rw [hnamed, horder]
  decide

end Market

/-- **The inspected channel.** For cell deps of shape `L` whose entry `i` is the first to name
the channel, every accepted match has inspected the channel it names exactly when that entry is
a `Code` entry and the entries before it resolve to `i` cells, or when there is no resolved cell
at `i` at all.

The script finds the entry among the raw deps and loads the cell at the same position among the
resolved ones, where dep groups have been replaced by their members.  For every other shape
there is an accepted match that has inspected some other channel in its place. -/
theorem inspectsNamed_iff (L : List DepShape) (i : Fin L.length) :
    InspectsNamed L i ↔ Aligned L i ∨ extent L ≤ i := by
  constructor
  · intro h
    by_contra hnot
    push Not at hnot
    exact Market.not_inspectsNamed i.isLt hnot.2 hnot.1 h
  · rintro (haligned | hle)
    · exact inspectsNamed_of_aligned haligned
    · exact inspectsNamed_of_extent_le hle

end Opticrum
