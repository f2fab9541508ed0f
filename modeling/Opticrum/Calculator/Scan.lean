import Opticrum.Calculator.FiberAddress
import Opticrum.Calculator.Reader
import Opticrum.Contract.Faults
import Opticrum.Foundation.Collect

/-!
# Scanning the chain

The calculator asks a node for the cells under the contract's lock, batch after batch,
parses them and skips what does not parse.  A pubkey narrows the search: it comes
first in the args of orders and of matches, and the node can search by a prefix of
the args.

## What is a parameter

The node: `Indexer` has its answers, and `Serves` is what it documents of a search by
prefix, that its batches are the cells it selects, in an order of its own that does
not depend on the search.

## The loop

A batch that cannot be fetched ends the scan with its error; a cell that does not parse is
skipped.  Since no parser panics, the loop is a `filterMap` over all the batches, and
`Indexer.Serves.scanCells_eq` says so: what is scanned is what parses of the cells that the
query selects, in the order of the node.

A cell found by a search has its data only when the query asked for it; both scans do.
-/

namespace Opticrum

open Rust Ckb Outcome

/-! ## The query -/

inductive SearchMode where
  | prefixOf
  | exact
  | partialOf
  deriving DecidableEq, Repr

/-- A search for cells by their lock: the script, how args are compared with those of a cell,
and whether data is asked for. -/
structure CellQueryOptions where
  lockScript : Script
  scriptSearchMode : Option SearchMode
  withData : Option Bool
  deriving DecidableEq, Repr

/-- `CellQueryOptions::new_lock`. -/
def CellQueryOptions.newLock (lockScript : Script) : CellQueryOptions := ⟨lockScript, none, none⟩

/-- The node, as far as scanning needs it.  `getCells` lists the answers of `next_batch` up to
the first `None`.  What the contents of a page are is up to the node; `Serves` says when it
serves some cells. -/
structure Indexer where
  network : Network
  getCells : CellQueryOptions → ℕ → List (Outcome String (List LiveCell))
  getTransaction : GetTransaction

/-- The code hash of scripts that carry a type id: `TYPE_ID` in ASCII. -/
def typeIdCodeHash : Byte32 :=
  Vector.replicate 25 (0 : UInt8) ++ (#v[0x54, 0x59, 0x50, 0x45, 0x5f, 0x49, 0x44] : Vector UInt8 7)

section Query

variable [ScriptHash]

/-- The code hash of the contract's lock is the hash of the type script it is deployed
under. -/
def opticrumCodeHash (typeId : Byte32) : Byte32 :=
  calcScriptHash ⟨typeIdCodeHash, .type, typeId.toList⟩

def resolveOpticrumCodeHash {ε : Type} (network : Network) : Outcome ε Byte32 := do
  let typeId ← opticrumContractTypeId network
  .ok (opticrumCodeHash typeId)

def opticrumQuery (network : Network) (argsPrefix : Option Bytes) :
    Outcome String CellQueryOptions := do
  let codeHash ← resolveOpticrumCodeHash network
  let lockArgs := argsPrefix.getD []
  let lockScript : Script := ⟨codeHash, .type, lockArgs⟩
  .ok { CellQueryOptions.newLock lockScript with
    scriptSearchMode := some .prefixOf, withData := some true }

end Query

/-! ## The scanner -/

section Scan

variable {U : Type}

/-- `while let Some(batch) = iter.next_batch(50).await?`, with the results so far.  An error of
the node ends the scan, an error of the parser does not. -/
def scanBatches (parseFn : LiveCell → Outcome String U) :
    List U → List (Outcome String (List LiveCell)) → Outcome String (List U)
  | results, [] => .ok results
  | results, answer :: answers => do
      let batch ← answer
      let results ← pushOk parseFn results batch
      scanBatches parseFn results answers

variable [ScriptHash] (indexer : Indexer) (codec : WitnessCodec)

def scanCells (argsPrefix : Option Bytes) (parseFn : LiveCell → Outcome String U) :
    Outcome String (List U) := do
  let query ← opticrumQuery indexer.network argsPrefix
  scanBatches parseFn [] (indexer.getCells query 50)

/-- Scan all live Order cells, and fetch the address of each.  The address is looked up in the
transaction that created the order. -/
def scanOrders (fiberPubkey : Option CompressedPubkey) : Outcome String (List OrderInfo) := do
  let argsPrefix := fiberPubkey.map fun pk => pk.toBytes.toList
  let orders ← scanCells indexer argsPrefix parseOrderCell
  .ok (orders.map fun order => { order with
    fiberAddress := fetchFiberAddress codec indexer.getTransaction order.orderOutpoint.txHash
      order.orderOutpoint.index })

/-- Scan all live Match cells. -/
def scanMatches (fiberPubkey : Option CompressedPubkey) : Outcome String (List MatchInfo) :=
  let argsPrefix := fiberPubkey.map fun pk => pk.toBytes.toList
  scanCells indexer argsPrefix parseMatchCell

end Scan

/-! ## What a node documents -/

/-- The cells a search by prefix selects: its code hash, its hash type, and args that
start with its args. -/
def CellQueryOptions.selects (query : CellQueryOptions) (c : LiveCell) : Bool :=
  c.lock.codeHash = query.lockScript.codeHash ∧ c.lock.hashType = query.lockScript.hashType ∧
    query.lockScript.args <+: c.lock.args

/-- How a selected cell is delivered: without its data, unless they are asked for.  A parser
would then reject it. -/
def CellQueryOptions.delivers (query : CellQueryOptions) (c : LiveCell) : LiveCell :=
  if query.withData = some true then c else { c with data := [] }

/-- The node serves the live cells `cells`: the batches of a search by prefix are the
cells it selects. -/
def Indexer.Serves (indexer : Indexer) (cells : List LiveCell) : Prop :=
  ∀ query limit, query.scriptSearchMode = some .prefixOf →
    ∃ batches : List (List LiveCell), indexer.getCells query limit = batches.map .ok ∧
      batches.flatten = (cells.filter query.selects).map query.delivers

section Scanned

variable {U : Type} {parseFn : LiveCell → Outcome String U}

/-- A parser that does not panic is run on every cell of every batch. -/
theorem scanBatches_eq (hparse : ∀ c, (parseFn c).Yields (· ≠ .panic) fun _ => True)
    (results : List U) (batches : List (List LiveCell)) :
    scanBatches parseFn results (batches.map .ok) =
      .ok (results ++ batches.flatten.filterMap fun c => (parseFn c).toOption) := by
  induction batches generalizing results with
  | nil => rw [List.map_nil, scanBatches, List.flatten_nil, List.filterMap_nil, List.append_nil]
  | cons batch batches ih =>
      rw [List.map_cons, scanBatches, ok_bind, pushOk_eq hparse, ok_bind, ih, List.flatten_cons,
        List.filterMap_append, List.append_assoc]

variable [ScriptHash] {indexer : Indexer} {cells : List LiveCell} {typeId : Byte32}

/-- The scanner runs the parser on the cells of the lock that start with the prefix. -/
theorem Indexer.Serves.scanCells_eq (h : indexer.Serves cells)
    (hnetwork : (opticrumContractTypeId indexer.network : Outcome String _) = .ok typeId)
    (hparse : ∀ c, (parseFn c).Yields (· ≠ .panic) fun _ => True) (argsPrefix : Option Bytes) :
    scanCells indexer argsPrefix parseFn =
      .ok ((cells.filter fun c => isOpticrumLock (opticrumCodeHash typeId) c.lock &&
        decide (argsPrefix.getD [] <+: c.lock.args)).filterMap fun c => (parseFn c).toOption) := by
  obtain ⟨query, hquery⟩ : ∃ query : CellQueryOptions, query =
    ⟨⟨opticrumCodeHash typeId, .type, argsPrefix.getD []⟩, some .prefixOf, some true⟩ := ⟨_, rfl⟩
  obtain ⟨batches, hbatches, hflatten⟩ := h query 50 (by rw [hquery])
  have hdelivers : query.delivers = id := by
    funext c
    rw [hquery]
    rfl
  have hselects : query.selects = fun c => isOpticrumLock (opticrumCodeHash typeId) c.lock &&
      decide (argsPrefix.getD [] <+: c.lock.args) := by
    funext c
    rw [hquery, Bool.eq_iff_iff]
    simp [CellQueryOptions.selects, isOpticrumLock, and_assoc]
  have hrun : opticrumQuery indexer.network argsPrefix = .ok query := by
    rw [opticrumQuery, resolveOpticrumCodeHash, hnetwork, hquery]
    rfl
  rw [scanCells, hrun, ok_bind, hbatches, scanBatches_eq hparse, List.nil_append, hflatten,
    hdelivers, List.map_id, hselects]

end Scanned

/-! ## The parsers -/

section Parsers

theorem yields_realRentCapacity (o : Cell) :
    (realRentCapacity o).Yields (· ≠ .panic) fun _ => True := by
  unfold realRentCapacity
  split
  · trivial
  · simp

/-- Neither parser panics. -/
theorem yields_parseOrderCell (c : LiveCell) :
    (parseOrderCell c).Yields (· ≠ .panic) fun _ => True := by
  rw [parseOrderCell, parseCellPrologue_eq, ok_bind]
  refine (OrderArgs.yields_fromSlice.mapErr (by simp)).bind fun _ _ => ?_
  refine (OrderData.yields_fromSlice.mapErr (by simp)).bind fun _ _ => ?_
  exact (yields_realRentCapacity _).bind fun _ _ => trivial

theorem yields_parseMatchCell (c : LiveCell) :
    (parseMatchCell c).Yields (· ≠ .panic) fun _ => True := by
  rw [parseMatchCell, parseCellPrologue_eq, ok_bind]
  refine (MatchArgs.yields_fromSlice.mapErr (by simp)).bind fun _ _ => ?_
  refine (MatchData.yields_fromSlice.mapErr (by simp)).bind fun _ _ => ?_
  exact (yields_realRentCapacity _).bind fun _ _ => trivial

end Parsers

end Opticrum
