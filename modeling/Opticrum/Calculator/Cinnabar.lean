import Opticrum.Ckb.Transaction

/-!
# Transaction skeletons

The calculator does not build transactions itself: it lists operations, and the
framework runs them one after the other on a skeleton, asking a node for the
cells and headers they name.

The framework is not part of this repository.  What it does with an operation is
a parameter, `runBasic`, and `Documented` states what the calculator relies on,
one field for each operation: what is appended to which part of the draft, and
that nothing else of it changes.  Where the calculator does not care, nothing is
promised: a dep that is already there may or may not be repeated, and the cells
picked for an address may be any of its cells.

## Three degrees

The promises come in layers, so that a result only assumes what it uses:

* `Documented`, for the builders that copy an output from an input;
* `DocumentedOutputs`, for those that make an output of their own;
* `DocumentedTokens` and `DocumentedCapacity`, for tokens and for the capacity of an order.

Each field speaks about one operation that has returned `Ok`.  That an operation may fail is
part of the model: a node may be down, a cell may have been spent.  No result about the builders
says that a transaction gets built, unless it says so in its statement.

## The last entry

An index of `usizeMax` names the last entry of a list, as in the framework; `entryAt` is that
convention.
-/

namespace Opticrum

open Rust Ckb

/-! ## Operations -/

/-- An address stands for the lock it pays to.  The human-readable form and its network are not
modelled, since no builder looks at them. -/
structure Address where
  script : Script
  deriving DecidableEq, Repr

/-- A script, or the name of a contract with the args to lock a cell with.  The framework knows
the contracts it was told about, and replaces a reference by the script it stands for when the
operation runs. -/
inductive ScriptEx where
  | script (script : Script)
  | reference (name : String) (args : Bytes)
  deriving DecidableEq, Repr

inductive CapacityAdjustment where
  | keep
  | add (capacity : U64)
  | subtract (capacity : U64)
  deriving DecidableEq, Repr

/-- The operations of the framework that the calculator lists, with the arguments they are
given.  What they do is not modelled: `Documented` says what is relied on. -/
inductive BasicOperation where
  | addCellDep (name : String) (txHash : Byte32) (index : U32) (depType : DepType)
      (withData : Bool)
  | addCellDepByTypeId (name : String) (typeArgs : Byte32) (depType : DepType)
      (withData : Bool)
  | addXudtCelldep
  | addHeaderDepByBlockNumber (blockNumber : U64)
  | addHeaderDepByCellDepIndex (celldepIndex : ℕ)
  | addHeaderDepByInputIndex (inputIndex : ℕ)
  | addInputCellByAddress (address : Address)
  | addInputCellByOutPoint (txHash : Byte32) (index : U32) (since : Option U64)
  | addOutputCell (lockScript : ScriptEx) (typeScript : Option ScriptEx) (data : Bytes)
      (capacity : U64) (absoluteCapacity : Bool) (typeId : Bool)
  | addOutputCellByInputIndex (inputIndex : ℕ) (data : Option Bytes)
      (lockScript : Option ScriptEx) (typeScript : Option ScriptEx)
      (adjustCapacity : CapacityAdjustment)
  deriving DecidableEq, Repr

/-- `usize::MAX`, which as an index means the last position. -/
def usizeMax : ℕ := 2 ^ 64 - 1

/-- The entry an index of an operation names.  The builders use the last position where they
mean the entry that has just been added, so what it names depends on the moment. -/
def entryAt {α : Type} (entries : List α) (index : ℕ) : Option α :=
  if index = usizeMax then entries.getLast? else entries[index]?

@[simp] theorem entryAt_usizeMax {α : Type} (entries : List α) :
    entryAt entries usizeMax = entries.getLast? := if_pos rfl

@[simp] theorem entryAt_zero {α : Type} (entries : List α) :
    entryAt entries 0 = entries[0]? := if_neg (by decide)

/-! ## Skeletons -/

/-- A witness of a skeleton; `empty` until one of its parts is set. -/
structure WitnessEx where
  empty : Bool
  lock : Bytes
  inputType : Bytes
  outputType : Bytes
  deriving DecidableEq, Repr

instance : Inhabited WitnessEx := ⟨⟨true, [], [], []⟩⟩

/-- A draft: the transaction so far, and its witnesses.  Operations append to it, and refer to
what is there by its position. -/
structure TransactionSkeleton extends Transaction where
  witnesses : List WitnessEx

/-- The skeleton the first instruction starts from. -/
def TransactionSkeleton.new : TransactionSkeleton := ⟨⟨[], [], [], []⟩, []⟩

/-! ## The node -/

inductive Network where
  | mainnet
  | testnet
  | custom (url : String)
  | fake
  deriving DecidableEq, Repr

/-- What a node answers: its network, the live cell at an out point, the header of a block, and
the code hash of a contract deployed under a name.

The last four fields are what every node promises.  A live cell is at the out point asked for,
holds at least what it occupies, and is from a block whose header the node has. -/
structure RPC where
  network : Network
  liveCell : Ckb.OutPoint → Option LiveCell
  header : U64 → Option Header
  codeHash : String → Byte32
  liveCell_outPoint : ∀ {p c}, liveCell p = some c → c.outPoint = p
  liveCell_funded : ∀ {p c}, liveCell p = some c → c.occupied ≤ c.capacity.toNat
  liveCell_header : ∀ {p c}, liveCell p = some c → header c.header.number = some c.header
  header_number : ∀ {n h}, header n = some h → h.number = n

/-- `c` is a live cell of the chain. -/
def RPC.Live (rpc : RPC) (c : LiveCell) : Prop := rpc.liveCell c.outPoint = some c

/-- The script a `ScriptEx` stands for: a contract is referenced by type.  That is the hash type
the contract looks for among the outputs. -/
def ScriptEx.toScript (rpc : RPC) : ScriptEx → Script
  | .script s => s
  | .reference name args => ⟨rpc.codeHash name, .type, args⟩

/-! ## What the framework documents -/

/-- `new` is `old` with `entry` in it: appended, unless it was there.  The framework may do
either with an entry that was there, and no result depends on which. -/
def Adds {α : Type} (old : List α) (entry : α) (new : List α) : Prop :=
  new = old ++ [entry] ∨ entry ∈ old ∧ new = old

/-- The capacity of a copied cell; an adjustment out of range promises nothing.  Adding past a
word and subtracting more than there is are such adjustments. -/
def CapacityAdjustment.Adjusts : CapacityAdjustment → U64 → U64 → Prop
  | .keep, old, new => new = old
  | .add capacity, old, new =>
      old.toNat + capacity.toNat < 2 ^ 64 → new.toNat = old.toNat + capacity.toNat
  | .subtract capacity, old, new =>
      capacity.toNat ≤ old.toNat → new.toNat = old.toNat - capacity.toNat

/-- The output an operation copies from the input cell `c`.  What the operation does not name is
taken over: the lock, the type script, the data. -/
def copiedOutput (rpc : RPC) (c : Cell) (data : Option Bytes)
    (lockScript typeScript : Option ScriptEx) (capacity : U64) : Cell where
  capacity := capacity
  lock := lockScript.elim c.lock (ScriptEx.toScript rpc)
  type_ := (typeScript.map (ScriptEx.toScript rpc)).or c.type_
  data := data.getD c.data

/-- What an operation that returns `Ok` has done to the draft.

Each field is about one operation, and says of which list it has changed and how; all else stays
as it was.  An operation may always fail, and nothing is said of a draft it was not meant for:
of an index that names no entry, or of an input that is there already. -/
structure Documented (rpc : RPC)
    (runBasic : BasicOperation → TransactionSkeleton → Outcome String TransactionSkeleton) :
    Prop where
  addCellDep : ∀ {name txHash index withData sk sk'},
    runBasic (.addCellDep name txHash index .code withData) sk = .ok sk' →
      ∃ c deps, rpc.liveCell ⟨txHash, index⟩ = some c ∧
        Adds sk.cellDeps (.code c) deps ∧
        sk'.toTransaction = { sk.toTransaction with cellDeps := deps }
  addCellDepByTypeId : ∀ {name typeArgs withData sk sk'},
    runBasic (.addCellDepByTypeId name typeArgs .code withData) sk = .ok sk' →
      ∃ c deps, rpc.Live c ∧ Adds sk.cellDeps (.code c) deps ∧
        sk'.toTransaction = { sk.toTransaction with cellDeps := deps }
  addHeaderDepByBlockNumber : ∀ {n sk sk'},
    runBasic (.addHeaderDepByBlockNumber n) sk = .ok sk' →
      ∃ h headers, rpc.header n = some h ∧ Adds sk.headerDeps h headers ∧
        sk'.toTransaction = { sk.toTransaction with headerDeps := headers }
  addHeaderDepByCellDepIndex : ∀ {i sk sk' c},
    runBasic (.addHeaderDepByCellDepIndex i) sk = .ok sk' →
      entryAt sk.cellDeps i = some (.code c) →
        ∃ headers, Adds sk.headerDeps c.header headers ∧
          sk'.toTransaction = { sk.toTransaction with headerDeps := headers }
  addHeaderDepByInputIndex : ∀ {i sk sk' c},
    runBasic (.addHeaderDepByInputIndex i) sk = .ok sk' →
      entryAt sk.inputs i = some c →
        ∃ headers, Adds sk.headerDeps c.header headers ∧
          sk'.toTransaction = { sk.toTransaction with headerDeps := headers }
  addInputCellByAddress : ∀ {address sk sk'},
    runBasic (.addInputCellByAddress address) sk = .ok sk' →
      ∃ cells, cells ≠ [] ∧ (∀ c ∈ cells, c.lock = address.script) ∧
        sk'.toTransaction = { sk.toTransaction with inputs := sk.inputs ++ cells }
  addInputCellByOutPoint : ∀ {txHash index since sk sk'},
    runBasic (.addInputCellByOutPoint txHash index since) sk = .ok sk' →
      ∃ c, rpc.liveCell ⟨txHash, index⟩ = some c ∧ (c ∉ sk.inputs →
        sk'.toTransaction = { sk.toTransaction with inputs := sk.inputs ++ [c] })
  addOutputCellByInputIndex : ∀ {i data lockScript typeScript adjustCapacity sk sk' c},
    runBasic (.addOutputCellByInputIndex i data lockScript typeScript adjustCapacity) sk = .ok sk' →
      entryAt sk.inputs i = some c →
        ∃ capacity, adjustCapacity.Adjusts c.capacity capacity ∧
          sk'.toTransaction = { sk.toTransaction with
            outputs := sk.outputs ++
              [copiedOutput rpc c.toCell data lockScript typeScript capacity] }

/-- What is documented of the operations that make an output of their own: the deps of
the token standard are deps, and an output without a type id has the scripts and the
data asked for. -/
structure DocumentedOutputs (rpc : RPC)
    (runBasic : BasicOperation → TransactionSkeleton → Outcome String TransactionSkeleton) :
    Prop extends Documented rpc runBasic where
  addXudtCelldep : ∀ {sk sk'},
    runBasic .addXudtCelldep sk = .ok sk' →
      ∃ deps, sk'.toTransaction = { sk.toTransaction with cellDeps := deps }
  addOutputCell : ∀ {lockScript typeScript data capacity absoluteCapacity sk sk'},
    runBasic (.addOutputCell lockScript typeScript data capacity absoluteCapacity false) sk =
      .ok sk' →
      ∃ held, sk'.toTransaction = { sk.toTransaction with
        outputs := sk.outputs ++ [⟨held, lockScript.toScript rpc,
          typeScript.map (ScriptEx.toScript rpc), data⟩] }

/-- What is documented besides when the consumed cell holds tokens: adding a header dep moves no
cell, and the cells picked for an address hold no tokens.  Without the latter a builder could
hardly know what it is spending. -/
structure DocumentedTokens (rpc : RPC)
    (runBasic : BasicOperation → TransactionSkeleton → Outcome String TransactionSkeleton) :
    Prop extends DocumentedOutputs rpc runBasic where
  headerDepMovesNothing : ∀ {i sk sk'},
    runBasic (.addHeaderDepByCellDepIndex i) sk = .ok sk' →
      sk'.inputs = sk.inputs ∧ sk'.outputs = sk.outputs
  plainInputs : ∀ {address sk sk'},
    runBasic (.addInputCellByAddress address) sk = .ok sk' →
      ∀ p ∈ sk'.inputs, p ∈ sk.inputs ∨ p.type_ = none

/-- What is documented besides of the capacity asked for, when it is not absolute: it
comes on top of what the output occupies. -/
structure DocumentedCapacity (rpc : RPC)
    (runBasic : BasicOperation → TransactionSkeleton → Outcome String TransactionSkeleton) :
    Prop extends DocumentedOutputs rpc runBasic where
  onTop : ∀ {lockScript typeScript data capacity sk sk' o},
    runBasic (.addOutputCell lockScript typeScript data capacity false false) sk = .ok sk' →
      sk'.outputs = sk.outputs ++ [o] → o.occupied + capacity.toNat < 2 ^ 64 →
        o.capacity.toNat = o.occupied + capacity.toNat

/-- What is documented of every operation: none takes a dep away. -/
def KeepsDeps
    (runBasic : BasicOperation → TransactionSkeleton → Outcome String TransactionSkeleton) :
    Prop :=
  ∀ operation sk sk', runBasic operation sk = .ok sk' → sk.cellDeps <+: sk'.cellDeps

/-! ## Adding what may be there -/

section Adds

variable {α : Type} {old new : List α} {entry : α}

theorem Adds.mem (h : Adds old entry new) : entry ∈ new := by
  rcases h with rfl | ⟨hmem, rfl⟩
  · simp
  · exact hmem

theorem Adds.mem_of_mem (h : Adds old entry new) {x : α} (hx : x ∈ old) : x ∈ new := by
  rcases h with rfl | ⟨-, rfl⟩
  · exact List.mem_append_left _ hx
  · exact hx

theorem Adds.of_nil (h : Adds [] entry new) : new = [entry] := by
  rcases h with rfl | ⟨hmem, -⟩
  · rfl
  · simp at hmem

/-- Added to one entry, an entry is the last. -/
theorem Adds.getLast?_of_singleton {x : α} (h : Adds [x] entry new) :
    new.getLast? = some entry := by
  rcases h with rfl | ⟨hmem, rfl⟩
  · rfl
  · rw [List.mem_singleton.mp hmem]
    rfl

/-- What was there stays in its place. -/
theorem Adds.getElem?_zero (h : Adds old entry new) {x : α} (hx : old[0]? = some x) :
    new[0]? = some x := by
  rcases h with rfl | ⟨-, rfl⟩
  · cases old with
    | nil => simp at hx
    | cons a as => exact hx
  · exact hx

end Adds

end Opticrum
