import Opticrum.Calculator.Molecule
import Opticrum.Calculator.Scan
import Opticrum.Contract.Construct

/-!
# Scanning lists what the contract recognises

The contract tells orders from matches by the length of their args; the calculator
has a parser for each, and skips what it rejects.  Both see the same orders and the
same matches, whatever else lies under the lock, and a search by pubkey finds those
that carry it.

## How it is proved

A parser returns something for exactly the cells that the contract recognises, one lemma for
each of the two kinds and each direction.  With that the loop is a filter followed by a map, and
`ListsExactly` states the result position by position: entry `i` of the list is the info of the
`i`-th recognised cell.

The node key comes first in the args of both layouts, so that a search by prefix selects what
begins with it.  No cell is missed, as all args of one kind have one length, and none is
selected by chance.
-/

namespace Opticrum

open Rust Ckb Outcome

/-! ## Parsing what the contract recognises -/

section Recognised

variable {c : LiveCell}

/-- A recognised order parses, and its information is that of the cell. -/
theorem parseOrderCell_of_isOrderCell (hfits : c.occupied < 2 ^ 64)
    (h : isOrderCell c.toCell = true) :
    ∃ info, (parseOrderCell c).toOption = some info ∧ OrderInfoOf c info := by
  obtain ⟨a, d, horder⟩ := isOrderCell_iff.mp h
  have hlt : c.unoccupied < 2 ^ 64 := lt_of_le_of_lt (Nat.sub_le _ _) c.capacity.isLt
  have hinfo : OrderInfoOf c ⟨a, d, c.type_.map fun typeScript => ⟨d.xudtAmount, typeScript⟩,
      BitVec.ofNat 64 c.unoccupied, OutPoint.unpacked c.outPoint, none⟩ :=
    ⟨horder, hfits, toNat_ofNat_of_lt hlt, rfl, rfl⟩
  exact ⟨_, by rw [parseOrderCell_eq_ok_iff.mpr ⟨hinfo, rfl⟩]; rfl, hinfo⟩

/-- The reader reads every match whose occupied capacity fits. -/
theorem parseMatchCell_of_isMatchCell (hfits : c.occupied < 2 ^ 64)
    (h : isMatchCell c.toCell = true) :
    ∃ info, (parseMatchCell c).toOption = some info ∧ MatchInfoOf c info := by
  obtain ⟨a, d, hmatch⟩ := isMatchCell_iff.mp h
  obtain ⟨info, hinfo, -, -⟩ := exists_matchInfoOf hmatch hfits
  exact ⟨info, by rw [parseMatchCell_eq_ok_iff.mpr hinfo]; rfl, hinfo⟩

/-- What a parser returned, it returned as `Ok`. -/
theorem toOption_eq_some_iff {ε α : Type} {x : Outcome ε α} {a : α} :
    x.toOption = some a ↔ x = .ok a := by
  cases x with
  | error f => simp [Except.toOption]
  | ok b => simp [Except.toOption]

/-- Any other cell is skipped. -/
theorem parseOrderCell_of_not_isOrderCell (h : isOrderCell c.toCell = false) :
    (parseOrderCell c).toOption = none := by
  rw [Option.eq_none_iff_forall_ne_some]
  intro info hinfo
  have horder := (parseOrderCell_eq_ok_iff.mp (toOption_eq_some_iff.mp hinfo)).1.decodes
  rw [isOrderCell_iff.mpr ⟨_, _, horder⟩] at h
  simp at h

/-- And nothing else: an order, or a cell it can make nothing of, is passed over. -/
theorem parseMatchCell_of_not_isMatchCell (h : isMatchCell c.toCell = false) :
    (parseMatchCell c).toOption = none := by
  rw [Option.eq_none_iff_forall_ne_some]
  intro info hinfo
  have hmatch := (parseMatchCell_eq_ok_iff.mp (toOption_eq_some_iff.mp hinfo)).decodes
  rw [isMatchCell_iff.mpr ⟨_, _, hmatch⟩] at h
  simp at h

end Recognised

/-! ## The pubkey comes first -/

section Pubkey

variable {pk : CompressedPubkey}

/-- A string is the beginning of another whose first part is as long as it exactly when it is
that part. -/
theorem prefix_append_iff {α : Type} {xs ys zs : List α} (h : xs.length = ys.length) :
    xs <+: ys ++ zs ↔ xs = ys := by
  rw [List.prefix_iff_eq_take, h, List.take_left]

/-- Args that start with a pubkey are those of an order that carries it. -/
theorem OrderArgs.prefix_toBytes_iff {a : OrderArgs} {rest : Bytes} :
    pk.toBytes.toList <+: a.toBytes.toList ++ rest ↔ a.fiberPubkey = pk := by
  rw [OrderArgs.toBytes, Vector.toList_append, List.append_assoc,
    prefix_append_iff (by rw [Vector.length_toList, Vector.length_toList]), Vector.toList_inj,
    CompressedPubkey.toBytes, CompressedPubkey.toBytes, ← CompressedPubkey.mk.injEq, eq_comm]

/-- Orders begin with the key of their node, so that the prefix search of the indexer finds
those of the node. -/
theorem IsOrder.startsWith_iff {c : Cell} {a : OrderArgs} {d : OrderData} (h : IsOrder c a d) :
    pk.toBytes.toList <+: c.lock.args ↔ a.fiberPubkey = pk := by
  rw [h.args_eq, ← List.append_nil a.toBytes.toList]
  exact OrderArgs.prefix_toBytes_iff

/-- So do matches, whose args begin with those of the order. -/
theorem IsMatch.startsWith_iff {c : Cell} {a : MatchArgs} {d : MatchData} (h : IsMatch c a d) :
    pk.toBytes.toList <+: c.lock.args ↔ a.orderArgs.fiberPubkey = pk := by
  rw [h.args_eq, MatchArgs.toBytes, Vector.toList_append, Vector.toList_append, List.append_assoc]
  exact OrderArgs.prefix_toBytes_iff

end Pubkey

/-! ## Scanning -/

/-- A scan lists exactly the cells that `recognised` picks: one entry with the information
of each, in the order of delivery; and a search by pubkey lists those of the entries
that carry it. -/
def ListsExactly {α : Type} (cells : List LiveCell) (recognised : LiveCell → Bool)
    (infoOf : LiveCell → α → Prop) (pubkeyOf : α → CompressedPubkey)
    (scan : Option CompressedPubkey → Outcome String (List α)) : Prop :=
  ∃ infos, scan none = .ok infos ∧ List.Forall₂ infoOf (cells.filter recognised) infos ∧
    ∀ pk, scan (some pk) = .ok (infos.filter fun info => pubkeyOf info = pk)

section Lists

variable {α : Type} {cells : List LiveCell} {recognised : LiveCell → Bool}
  {infoOf : LiveCell → α → Prop} {pubkeyOf : α → CompressedPubkey}

/-- Entries may be enriched, as long as they stay the information of their cells. -/
theorem ListsExactly.map {scan : Option CompressedPubkey → Outcome String (List α)}
    (h : ListsExactly cells recognised infoOf pubkeyOf scan) {enrich : α → α}
    (hinfo : ∀ c info, infoOf c info → infoOf c (enrich info))
    (hpubkey : ∀ info, pubkeyOf (enrich info) = pubkeyOf info) :
    ListsExactly cells recognised infoOf pubkeyOf
      (fun pk => scan pk >>= fun infos => .ok (infos.map enrich)) := by
  obtain ⟨infos, hall, hlisted, hpk⟩ := h
  refine ⟨infos.map enrich, by simp only [hall, ok_bind], ?_, fun pk => ?_⟩
  · rw [List.forall₂_map_right_iff]
    exact hlisted.imp hinfo
  · simp only [hpk, ok_bind, List.filter_map]
    congr 3
    funext info
    rw [Function.comp_apply, hpubkey]

variable [ScriptHash] {indexer : Indexer} {typeId : Byte32} {parseFn : LiveCell → Outcome String α}

/-- A scan lists exactly what its parser accepts: the prefix of a pubkey is looked for in
the args, and found in those that decode to it. -/
theorem Indexer.Serves.listsExactly (h : indexer.Serves cells)
    (hnetwork : (opticrumContractTypeId indexer.network : Outcome String _) = .ok typeId)
    (hparse : ∀ c, (parseFn c).Yields (· ≠ .panic) fun _ => True)
    (haccept : ∀ c ∈ cells, recognised c = true →
      ∃ info, (parseFn c).toOption = some info ∧ infoOf c info)
    (hskip : ∀ c, recognised c = false → (parseFn c).toOption = none)
    (hpubkey : ∀ c info, (parseFn c).toOption = some info → ∀ pk : CompressedPubkey,
      pk.toBytes.toList <+: c.lock.args ↔ pubkeyOf info = pk) :
    ListsExactly (cells.filter fun c => isOpticrumLock (opticrumCodeHash typeId) c.lock)
      recognised infoOf pubkeyOf
      (fun pk => scanCells indexer (pk.map fun pk => pk.toBytes.toList) parseFn) := by
  refine ⟨(cells.filter fun c => isOpticrumLock (opticrumCodeHash typeId) c.lock).filterMap
    fun c => (parseFn c).toOption, ?_, ?_, fun pk => ?_⟩
  · show scanCells indexer none parseFn = _
    rw [h.scanCells_eq hnetwork hparse]
    simp
  · refine forall₂_filterMap (fun c hc => haccept c (List.mem_of_mem_filter hc)) fun c _ => hskip c
  · show scanCells indexer (some pk.toBytes.toList) parseFn = _
    rw [h.scanCells_eq hnetwork hparse, ← filterMap_filter_of_agree
      (p := fun c => decide (pk.toBytes.toList <+: c.lock.args)), List.filter_filter]
    · simp [Bool.and_comm]
    · intro c _ info hinfo
      exact decide_eq_decide.mpr (hpubkey c info hinfo pk)

end Lists

section Scanning

variable [ScriptHash]

/-- Scanning the cells under the contract's lock lists orders as orders, matches as matches, and
no cell as both.  Each is listed as often as it is served, and reads as the contract would read
it. -/
structure ScansExactly (indexer : Indexer) (codec : WitnessCodec) (cells : List LiveCell) :
    Prop where
  orders : ListsExactly cells (fun c => isOrderCell c.toCell) OrderInfoOf
    (fun info => info.orderArgs.fiberPubkey) (scanOrders indexer codec)
  matched : ListsExactly cells (fun c => isMatchCell c.toCell) MatchInfoOf
    (fun info => info.matchArgs.orderArgs.fiberPubkey) (scanMatches indexer)
  disjoint : ∀ c ∈ cells, ¬ (isOrderCell c.toCell = true ∧ isMatchCell c.toCell = true)

variable {indexer : Indexer} {codec : WitnessCodec} {cells : List LiveCell} {typeId : Byte32}

/-- **Scanning** lists exactly what the contract recognises.

The indexer may serve the cells in pages of any size.  Those under the contract's lock that
decode as an order, or as a match, are listed once each and in the order they are served in;
what decodes as neither is left out without an error.  A search by the node's key lists the part
of it whose args begin with that key. -/
theorem scans_exactly (hserves : indexer.Serves cells)
    (hnetwork : (opticrumContractTypeId indexer.network : Outcome String _) = .ok typeId)
    (hfits : ∀ c ∈ cells, c.occupied < 2 ^ 64) :
    ScansExactly indexer codec
      (cells.filter fun c => isOpticrumLock (opticrumCodeHash typeId) c.lock) where
  orders := by
    refine (hserves.listsExactly hnetwork yields_parseOrderCell
      (fun c hc => parseOrderCell_of_isOrderCell (hfits c hc))
      (fun c => parseOrderCell_of_not_isOrderCell) ?_).map ?_ ?_
    · intro c info hinfo pk
      exact (parseOrderCell_eq_ok_iff.mp (toOption_eq_some_iff.mp hinfo)).1.decodes.startsWith_iff
    · intro c info hinfo
      exact ⟨hinfo.decodes, hinfo.fits, hinfo.capacity, hinfo.xudt, hinfo.outpoint⟩
    · intro info
      rfl
  matched := by
    refine hserves.listsExactly hnetwork yields_parseMatchCell
      (fun c hc => parseMatchCell_of_isMatchCell (hfits c hc))
      (fun c => parseMatchCell_of_not_isMatchCell) ?_
    intro c info hinfo pk
    exact (parseMatchCell_eq_ok_iff.mp (toOption_eq_some_iff.mp hinfo)).decodes.startsWith_iff
  disjoint := by
    rintro c - ⟨horder, hmatch⟩
    obtain ⟨a, d, horder⟩ := isOrderCell_iff.mp horder
    obtain ⟨a', d', hmatch⟩ := isMatchCell_iff.mp hmatch
    exact hmatch.not_isOrder horder

end Scanning

/-! ## On the test network -/

namespace Testnet

/-- The type id of the contract on the test network. -/
def typeId : Byte32 :=
  ((opticrumContractTypeId .testnet : Outcome Empty Byte32).toOption).getD default

/-- The script hash of the market, with the digest of the script the contract is
deployed under. -/
scoped instance scriptHash : ScriptHash where
  calcScriptHash s :=
    if s = ⟨typeIdCodeHash, .type, typeId.toList⟩ then Market.codeHash
    else Market.scriptHash.calcScriptHash s

theorem opticrumCodeHash_typeId : opticrumCodeHash typeId = Market.codeHash := by
  rw [opticrumCodeHash]
  exact if_pos rfl

/-- A node that delivers the cells of the chain one by one. -/
def indexerOf (cells : List LiveCell) : Indexer where
  network := .testnet
  getCells query _ := ((cells.filter query.selects).map query.delivers).map fun c => .ok [c]
  getTransaction _ := .ok none

/-- An indexer that holds some cells serves these, in pages of any size. -/
theorem serves_indexerOf (cells : List LiveCell) : (indexerOf cells).Serves cells := by
  intro query limit _
  refine ⟨((cells.filter query.selects).map query.delivers).map fun c => [c], ?_, ?_⟩
  · rw [List.map_map]
    rfl
  · rw [← List.flatMap_def, List.flatMap_singleton']

/-- A cell under the lock of the contract that is neither an order nor a match. -/
def stray : LiveCell :=
  partyCell (opticrumLock Market.codeHash [0x01]) 0 ⟨Vector.replicate 32 0xaa, 1⟩
    (Market.headerAt 600)

/-- An order, a stray cell and a match. -/
def lockedCells : List LiveCell :=
  [(Market.order 0).toLiveCell, stray, (Market.matchCell ⟨0, 3, 0⟩ none 100000 2 1000).toLiveCell]

theorem lockedCells_fit : ∀ c ∈ lockedCells, c.occupied < 2 ^ 64 := by
  simp only [lockedCells, List.forall_mem_cons]
  refine ⟨?_, ?_, ?_, List.forall_mem_nil _⟩
  · exact Market.orderCell_fits
  · rw [stray, partyCell, fund_occupied]
    decide
  · exact Market.matchCell_fits

/-- The scan finds those under the contract's lock, the malformed one left out. -/
theorem lockedCells_scanned : ScansExactly (indexerOf lockedCells) Molecule.codec
    (lockedCells.filter fun c => isOpticrumLock Market.codeHash c.lock) := by
  have hnetwork : (opticrumContractTypeId .testnet : Outcome String _) = .ok typeId := rfl
  rw [← opticrumCodeHash_typeId]
  exact scans_exactly (serves_indexerOf lockedCells) hnetwork lockedCells_fit

end Testnet

end Opticrum
