import Opticrum.Calculator.Cinnabar
import Opticrum.Protocol

/-!
# Operations of Opticrum

The deployment record of the contract, and the two operations the calculator
adds to those of the framework: one looks up the deployment, the other writes an
output's witness.  `runInstruction` runs a list of operations in order.

## Order matters

The operations run on one skeleton, each on what the one before has left.  An operation that
names an entry by its position means the position at that moment: the witness of an output is
placed behind the inputs that are there when it is written, and inputs added later do not move
it.

`runInstruction_append_eq_ok_iff` splits a run where one instruction is put behind another, and
`runInstruction_cons_eq_ok_iff` peels off the first operation.  The lemmas about builders are
iterations of these two.
-/

namespace Opticrum

open Rust Ckb

/-! ## Configuration -/

/-- The name under which the framework knows the contract. -/
def opticrumContractName : String := "opticrum"

/-- A CKB is a hundred million shannons. -/
def ckbDecimal : U64 := 100000000

/-- Extra capacity of a Match cell over the Order cell it replaces: its lock args
and data are longer, and occupy more. -/
def orderToMatchCapacityReserve : U64 :=
  BitVec.ofNat 64 (matchArgsLen - orderArgsLen + matchDataLen - orderDataLen) * ckbDecimal

/-- The type id the contract is deployed under; not every network has one.  On such a network
every instruction aborts at its first operation. -/
def opticrumContractTypeId {ε : Type} : Network → Outcome ε Byte32
  | .testnet => .ok
      #v[0x3b, 0x00, 0x9c, 0x19, 0x5d, 0x6d, 0xd5, 0x61, 0x7d, 0x68, 0x7a, 0x03, 0x87, 0xbc,
        0xce, 0xfa, 0xe9, 0x9e, 0xac, 0x8a, 0x1a, 0x5e, 0x39, 0x3b, 0xf2, 0x56, 0x3a, 0x3a,
        0xfb, 0x7f, 0xeb, 0x49]
  | .fake => .ok (Vector.replicate 32 0)
  | .mainnet => .panicked
  | .custom _ => .panicked

/-! ## Operations -/

/-- The contract's lock with these args. -/
def opticrumLockEx (args : Bytes) : ScriptEx := .reference opticrumContractName args

/-- An operation of an instruction: one of the framework, or one of the two the calculator adds
to them. -/
inductive Operation where
  | basic (operation : BasicOperation)
  | addOpticrumContractCelldep
  | setOutputWitness (outputIndex : ℕ) (data : Bytes)
  deriving DecidableEq, Repr

/-- A list of operations, to be run in order. -/
abbrev Instruction := List Operation

/-- Write `data` into the witness of an output, which comes after those of the
inputs; missing witnesses are filled in. -/
def TransactionSkeleton.setOutputWitness (skeleton : TransactionSkeleton) (outputIndex : ℕ)
    (data : Bytes) : TransactionSkeleton :=
  let witnessIndex := skeleton.inputs.length + outputIndex
  let padding := List.replicate (witnessIndex + 1 - skeleton.witnesses.length) default
  { skeleton with
    witnesses := (skeleton.witnesses ++ padding).modify witnessIndex fun witness =>
      { witness with outputType := data, empty := false } }

section Run

variable (rpc : RPC)
  (runBasic : BasicOperation → TransactionSkeleton → Outcome String TransactionSkeleton)

/-- Run one operation.  Those of the framework go to `runBasic`; the deployment of the contract
is looked up first, which aborts on a network that has none. -/
def Operation.run (operation : Operation) (skeleton : TransactionSkeleton) :
    Outcome String TransactionSkeleton :=
  match operation with
  | .basic operation => runBasic operation skeleton
  | .addOpticrumContractCelldep => do
      let typeArgs ← opticrumContractTypeId rpc.network
      runBasic (.addCellDepByTypeId opticrumContractName typeArgs .code false) skeleton
  | .setOutputWitness outputIndex data => .ok (skeleton.setOutputWitness outputIndex data)

/-- Run the operations one after the other, each on what the one before has left.  The first
error ends it. -/
def runInstruction (instruction : Instruction) (skeleton : TransactionSkeleton) :
    Outcome String TransactionSkeleton :=
  match instruction with
  | [] => .ok skeleton
  | operation :: operations => do
      let skeleton ← operation.run rpc runBasic skeleton
      runInstruction operations skeleton

end Run

/-! ## Running a list -/

section Running

variable {rpc : RPC}
  {runBasic : BasicOperation → TransactionSkeleton → Outcome String TransactionSkeleton}
  {sk sk' : TransactionSkeleton}

/-- No operation leaves the skeleton as it is. -/
theorem runInstruction_nil_eq_ok_iff :
    runInstruction rpc runBasic [] sk = .ok sk' ↔ sk = sk' := by
  rw [runInstruction, Except.ok.injEq]

/-- A list runs when its first operation does and the others run on what it leaves.  The proofs
about builders walk down their lists with this. -/
theorem runInstruction_cons_eq_ok_iff {operation : Operation} {operations : Instruction} :
    runInstruction rpc runBasic (operation :: operations) sk = .ok sk' ↔
      ∃ sk₁, operation.run rpc runBasic sk = .ok sk₁ ∧
        runInstruction rpc runBasic operations sk₁ = .ok sk' := by
  rw [runInstruction, Outcome.bind_eq_ok_iff]

/-- A single operation is run by itself. -/
theorem runInstruction_singleton_eq_ok_iff {operation : Operation} :
    runInstruction rpc runBasic [operation] sk = .ok sk' ↔
      operation.run rpc runBasic sk = .ok sk' := by
  simp only [runInstruction_cons_eq_ok_iff, runInstruction_nil_eq_ok_iff, exists_eq_right]

/-- Two lists in one instruction run like the two of them in turn, so a builder that calls
another one can be followed in parts. -/
theorem runInstruction_append_eq_ok_iff {first second : Instruction} :
    runInstruction rpc runBasic (first ++ second) sk = .ok sk' ↔
      ∃ sk₁, runInstruction rpc runBasic first sk = .ok sk₁ ∧
        runInstruction rpc runBasic second sk₁ = .ok sk' := by
  induction first generalizing sk with
  | nil => simp [runInstruction_nil_eq_ok_iff]
  | cons operation operations ih =>
      simp only [List.cons_append, runInstruction_cons_eq_ok_iff, ih]
      constructor
      · rintro ⟨sk₁, h₁, sk₂, h₂, h₃⟩
        exact ⟨sk₂, ⟨sk₁, h₁, h₂⟩, h₃⟩
      · rintro ⟨sk₂, ⟨sk₁, h₁, h₂⟩, h₃⟩
        exact ⟨sk₁, h₁, sk₂, h₂, h₃⟩

/-- Looking up the deployment adds one code dep. -/
theorem Documented.addOpticrumContractCelldep (doc : Documented rpc runBasic)
    (h : Operation.addOpticrumContractCelldep.run rpc runBasic sk = .ok sk') :
    ∃ c deps, rpc.Live c ∧ Adds sk.cellDeps (.code c) deps ∧
      sk'.toTransaction = { sk.toTransaction with cellDeps := deps } := by
  obtain ⟨typeArgs, -, h⟩ := Outcome.bind_eq_ok_iff.mp h
  exact doc.addCellDepByTypeId h

end Running

end Opticrum
