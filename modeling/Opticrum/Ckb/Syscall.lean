import Opticrum.Ckb.Transaction

/-!
# System calls of a lock script

`Env` is what one run of a lock script sees: the transaction and the script that
runs.  The functions `loadCell…`, `loadHeader` are the `high_level` functions of
`ckb-std` with the same names; an index past the end of a source is
`IndexOutOfBound`, a header whose block is not among the header deps is
`ItemMissing`.

## The group

`GroupInput` holds the inputs under the running lock, in the order of the transaction, and its
first cell is the one the contract inspects.  The group is computed from the transaction and the
script, so an `Env` cannot hold a group that does not belong to it.

The last section says what a call returns at a position whose cell is known.  Proofs about the
verifiers use these equivalences and do not unfold the calls.
-/

namespace Ckb

open Rust

/-- Where a system call loads from.  `groupInput` are the inputs with the lock that is running. -/
inductive Source where
  | input
  | output
  | groupInput
  | cellDep
  | headerDep
  deriving DecidableEq, Repr

/-- What a system call can report. -/
inductive SysError where
  | indexOutOfBound
  | itemMissing
  /-- What the machine reports when a cell's capacity arithmetic overflows. -/
  | unknown
  deriving DecidableEq, Repr

/-- One run of the lock script `script` in the transaction `tx`.  All a run can load is given by
the two: the script's group are the inputs with its lock. -/
structure Env where
  tx : Transaction
  script : Script

namespace Env

variable (env : Env)

/-- The cells of a source that are cells of the chain.  Outputs are not: they have neither an
out point nor a block. -/
def liveCells : Source → List LiveCell
  | .input => env.tx.inputs
  | .groupInput => env.tx.groupInputs env.script
  | .cellDep => env.tx.resolvedCellDeps
  | .output | .headerDep => []

/-- The cells of a source. -/
def cells : Source → List Cell
  | .output => env.tx.outputs
  | source => (env.liveCells source).map LiveCell.toCell

/-- The cell at an index of a source.  The other calls read a field of it, so they fail where it
does. -/
def loadCell (index : ℕ) (source : Source) : Outcome SysError Cell :=
  match (env.cells source)[index]? with
  | some cell => .ok cell
  | none => .err .indexOutOfBound

/-- The lock of a cell. -/
def loadCellLock (index : ℕ) (source : Source) : Outcome SysError Script := do
  let cell ← env.loadCell index source
  .ok cell.lock

/-- `load_cell_type`: `None` for a cell without a type script. -/
def loadCellType (index : ℕ) (source : Source) : Outcome SysError (Option Script) := do
  let cell ← env.loadCell index source
  .ok cell.type_

def loadCellData (index : ℕ) (source : Source) : Outcome SysError Bytes := do
  let cell ← env.loadCell index source
  .ok cell.data

def loadCellCapacity (index : ℕ) (source : Source) : Outcome SysError U64 := do
  let cell ← env.loadCell index source
  .ok cell.capacity

/-- The capacity a cell occupies, in 64 bits.  Where the product does not fit, the call fails
and does not wrap. -/
def loadCellOccupiedCapacity (index : ℕ) (source : Source) : Outcome SysError U64 := do
  let cell ← env.loadCell index source
  if cell.occupied < 2 ^ 64 then .ok (BitVec.ofNat 64 cell.occupied)
  else .err .unknown

/-- `load_header`: of a header dep, or of the block that committed a cell.  The latter is found
only when the transaction lists that block among its header deps. -/
def loadHeader (index : ℕ) (source : Source) : Outcome SysError Header :=
  match source with
  | .headerDep =>
      match env.tx.headerDeps[index]? with
      | some header => .ok header
      | none => .err .indexOutOfBound
  | source =>
      match (env.liveCells source)[index]? with
      | some cell =>
          if env.tx.hasHeader cell.header then .ok cell.header else .err .itemMissing
      | none => .err .indexOutOfBound

/-- `load_transaction`, as far as the cell deps go. -/
def loadTransactionCellDeps : Outcome SysError (List CellDep) := .ok env.tx.rawCellDeps

/-- The args of the running script. -/
def scriptArgs : Bytes := env.script.args

/-- `QueryIter::new(load_cell_lock, source)`. -/
def queryLocks (source : Source) : List Script := (env.cells source).map Cell.lock

/-- `QueryIter::new(load_cell_lock_hash, source)`.  This is where the digest of a script
enters. -/
def queryLockHashes [ScriptHash] (source : Source) : List Byte32 :=
  (env.queryLocks source).map calcScriptHash

/-! ## Simplification -/

variable {env} {index : ℕ} {source : Source} {cell : Cell}

/-- A cell is loaded when there is one at the position. -/
theorem loadCell_eq_ok_iff :
    env.loadCell index source = .ok cell ↔ (env.cells source)[index]? = some cell := by
  unfold loadCell
  cases (env.cells source)[index]? with
  | none => simp
  | some c => simp

theorem loadCell_of_getElem? (h : (env.cells source)[index]? = some cell) :
    env.loadCell index source = .ok cell := loadCell_eq_ok_iff.mpr h

/-- The header of a cell's block, when the header deps name that block. -/
theorem loadHeader_groupInput_eq_ok_iff {c : LiveCell} {rest : List LiveCell}
    {header : Header} (h : env.tx.groupInputs env.script = c :: rest) :
    env.loadHeader 0 .groupInput = .ok header ↔
      env.tx.hasHeader c.header ∧ c.header = header := by
  simp only [loadHeader, liveCells, h, List.getElem?_cons_zero]
  split <;> simp_all

/-- A header dep is loaded by its position. -/
theorem loadHeader_headerDep_eq_ok_iff {header : Header} :
    env.loadHeader index .headerDep = .ok header ↔
      env.tx.headerDeps[index]? = some header := by
  simp only [loadHeader]
  cases env.tx.headerDeps[index]? with
  | none => simp
  | some h => simp

end Env

end Ckb
