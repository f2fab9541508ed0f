import Opticrum.Foundation.Outcome
import Opticrum.Foundation.LittleEndian

/-!
# CKB transactions

The part of CKB's data model that a lock script can observe: scripts, cells,
headers, and transactions whose inputs and cell deps have been resolved against
the live cells of the chain.

## Two index spaces for cell deps

A transaction lists its cell deps as *raw* entries `(out_point, dep_type)`.  The
node resolves them before it runs a script: a `Code` entry becomes the live cell
at its out point, a `DepGroup` entry is replaced in place by the member cells of
the group.  `ResolvedDep` keeps an entry together with the cells it resolved to,
so that both lists can be read off one transaction: `rawCellDeps` is what
`load_transaction` returns, `resolvedCellDeps` is what `Source::CellDep` indexes.

## Hashes

Script hashes are blake2b digests.  The hash function is a parameter, `ScriptHash`;
nothing in this development depends on which function it is.

## What is left out

Witnesses, the `since` of an input and the position of a transaction in its block are not here:
no script of this development reads them.  Neither are the rules a node applies before any
script runs, that capacities add up, that no cell is consumed twice, that a dep is live.  They
would only leave fewer transactions, and the results are about all that the contract accepts.

`Cell.occupied` is the price of a cell in shannons, over the natural numbers; the system call
that returns it works on 64-bit words and is in `Opticrum.Ckb.Syscall`.
-/

namespace Ckb

open Rust

abbrev U32 := BitVec 32
abbrev U64 := BitVec 64
abbrev U128 := BitVec 128
abbrev Bytes := List UInt8
abbrev Byte32 := Vector UInt8 32

/-- How a script's `code_hash` names its code. -/
inductive ScriptHashType where
  | data
  | type
  | data1
  | data2
  deriving DecidableEq, Repr

/-- A script: the code it names, how it names it, and its args.  Two locks are the same only
when all three are. -/
structure Script where
  codeHash : Byte32
  hashType : ScriptHashType
  args : Bytes
  deriving DecidableEq, Repr

/-- The digest of a script (`calc_script_hash`).  Nothing is supposed of it, not even that
different scripts have different digests; where a result needs two digests to differ, it says
so. -/
class ScriptHash where
  calcScriptHash : Script → Byte32

export ScriptHash (calcScriptHash)

/-- Where a cell was created: the hash of the transaction and the position among its outputs. -/
structure OutPoint where
  txHash : Byte32
  index : U32
  deriving DecidableEq, Repr

/-- The 36 bytes of a packed out point.  The contract compares out points in this form. -/
def OutPoint.asSlice (o : OutPoint) : Bytes :=
  o.txHash.toList ++ (toLeBytes (n := 4) o.index).toList

/-- A cell: its `CellOutput` together with its data.  Outputs are cells in this sense; a cell of
the chain is a `LiveCell`. -/
structure Cell where
  capacity : U64
  lock : Script
  type_ : Option Script
  data : Bytes
  deriving DecidableEq, Repr

/-! ## Capacity -/

/-- Shannons in one CKB, the price of one occupied byte. -/
def oneCkb : ℕ := 100000000

/-- Bytes a script occupies: code hash, hash type, args. -/
def Script.occupiedBytes (s : Script) : ℕ := 32 + 1 + s.args.length

/-- Bytes a cell occupies: its capacity field, its scripts, its data. -/
def Cell.occupiedBytes (c : Cell) : ℕ :=
  8 + c.lock.occupiedBytes + c.type_.elim 0 Script.occupiedBytes + c.data.length

/-- Shannons a cell must hold for the bytes it occupies.  It is a natural number, so that
nothing wraps here; the system call checks that it fits. -/
def Cell.occupied (c : Cell) : ℕ := oneCkb * c.occupiedBytes

/-- Shannons a cell holds beyond that, saturating at zero.  For an order or a match this is the
pool that pays the rent. -/
def Cell.unoccupied (c : Cell) : ℕ := c.capacity.toNat - c.occupied

/-! ## Cells on the chain -/

/-- What a script can learn of a block. -/
structure Header where
  hash : Byte32
  number : U64
  deriving DecidableEq, Repr

/-- A cell of the chain: where it is and the header of the block that committed it.  The rent of
a match that has not been extracted from starts at this header. -/
structure LiveCell extends Cell where
  outPoint : OutPoint
  header : Header
  deriving DecidableEq, Repr

/-- The number of the block that committed a cell. -/
def LiveCell.block (c : LiveCell) : ℕ := c.header.number.toNat

/-- A cell dep is a cell itself, or a group that stands for the cells it lists. -/
inductive DepType where
  | code
  | depGroup
  deriving DecidableEq, Repr

/-- An entry of a transaction's `cell_deps`. -/
structure CellDep where
  outPoint : OutPoint
  depType : DepType
  deriving DecidableEq, Repr

/-- A raw entry together with the cells it resolves to: for a `Code` entry, the one live cell at
its out point.  A script sees the raw entries in one list and the cells they resolve to in
another, of a different length. -/
structure ResolvedDep where
  dep : CellDep
  cells : List LiveCell
  code_cell : dep.depType = .code → ∃ c, cells = [c] ∧ c.outPoint = dep.outPoint

/-- The `Code` entry naming the live cell `c`. -/
def ResolvedDep.code (c : LiveCell) : ResolvedDep where
  dep := ⟨c.outPoint, .code⟩
  cells := [c]
  code_cell := fun _ => ⟨c, rfl, rfl⟩

/-- The `DepGroup` entry at `outPoint` whose members are `members`. -/
def ResolvedDep.depGroup (outPoint : OutPoint) (members : List LiveCell) : ResolvedDep where
  dep := ⟨outPoint, .depGroup⟩
  cells := members
  code_cell := fun h => by simp at h

/-- A resolved transaction: inputs and cell deps come with their cells, header deps with their
headers.  Witnesses are not part of it, as no script of the contract reads them. -/
structure Transaction where
  inputs : List LiveCell
  outputs : List Cell
  cellDeps : List ResolvedDep
  headerDeps : List Header

namespace Transaction

/-- The cell deps as `load_transaction` returns them.  A dep group is one entry here. -/
def rawCellDeps (tx : Transaction) : List CellDep := tx.cellDeps.map ResolvedDep.dep

/-- The cell deps as `Source::CellDep` indexes them.  A dep group is as many entries here as it
has members. -/
def resolvedCellDeps (tx : Transaction) : List LiveCell :=
  tx.cellDeps.flatMap ResolvedDep.cells

/-- The inputs whose lock is `script`.  A lock script runs once for all of them:
they are its `GroupInput` cells. -/
def groupInputs (tx : Transaction) (script : Script) : List LiveCell :=
  tx.inputs.filter (·.lock = script)

/-- `h` names a block of the header deps.  Blocks are compared by their hashes, as a script can
only ask for what the transaction lists. -/
def hasHeader (tx : Transaction) (h : Header) : Bool :=
  tx.headerDeps.any (·.hash = h.hash)

end Transaction

end Ckb
