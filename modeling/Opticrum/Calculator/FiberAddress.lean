import Opticrum.Calculator.Draft
import Opticrum.Foundation.Utf8

/-!
# The Fiber address of an order

The buyer's address travels in the transaction that creates the order, in the output
type of a witness.  `SetOutputWitness` writes it, `fetchFiberAddress` reads it back
from the transaction as a node returns it.  Writer and reader count the inputs, each
at its own time, to find the witness.

## What is a parameter

How a witness is encoded, and what the node answers.  `RoundTrips` is what is assumed
of the encoding, `DocumentedWitnesses` what is assumed of the framework's operations:
they leave the output types of the witnesses where they are, and write none.

## The two counts

Both sides place the witness of output `i` at `inputs + i`.  The writer counts the inputs of the
skeleton at the time the operation runs, the reader those of the transaction that was sent.
What is read is therefore what was written exactly when no input came in between; otherwise the
reader looks behind the witness, where by `KeepsOutputTypes` no other output type stands.
-/

namespace Opticrum

open Rust Ckb

/-! ## Transactions as a node returns them -/

/-- A decoded witness. -/
structure WitnessArgs where
  lock : Option Bytes
  inputType : Option Bytes
  outputType : Option Bytes
  deriving DecidableEq, Repr

/-- The encoding of witnesses, and its decoder.  Which encoding it is does not matter;
`Molecule.codec` is the one of the chain. -/
structure WitnessCodec where
  packed : WitnessEx → Bytes
  fromSlice : Bytes → Except String WitnessArgs

/-- The part of a returned transaction that the reader looks at. -/
structure TransactionView where
  inputs : List Ckb.OutPoint
  witnesses : List Bytes
  deriving DecidableEq, Repr

/-- `Either<TransactionView, JsonBytes>`. -/
inductive ResponseFormat where
  | json (view : TransactionView)
  | hex (bytes : Bytes)
  deriving DecidableEq, Repr

structure TransactionWithStatus where
  transaction : Option ResponseFormat
  deriving DecidableEq, Repr

/-- What a node answers to `get_transaction`. -/
abbrev GetTransaction := Byte32 → Except String (Option TransactionWithStatus)

/-- The transaction of a skeleton, as a node returns it. -/
def TransactionSkeleton.view (codec : WitnessCodec) (sk : TransactionSkeleton) :
    TransactionView where
  inputs := sk.inputs.map LiveCell.outPoint
  witnesses := sk.witnesses.map codec.packed

section Fetch

variable (codec : WitnessCodec) (getTransaction : GetTransaction)

/-- The address stored for an output of a transaction.  Every failure on the way, from a node
that does not answer to bytes that are no string, reads as no address. -/
def fetchFiberAddress (txHash : Byte32) (outputIndex : U32) : Option String := do
  let txResponse ← (← (getTransaction txHash).toOption)
  let txFormat ← txResponse.transaction
  match txFormat with
  | .hex _ => none
  | .json txView => do
      let witnessIndex := txView.inputs.length + outputIndex.toNat
      let rawBytes ← txView.witnesses[witnessIndex]?
      if rawBytes = [] then none
      else do
        let witnessArgs ← (codec.fromSlice rawBytes).toOption
        let outputTypeBytes ← witnessArgs.outputType
        if outputTypeBytes = [] then none
        else fromUtf8 outputTypeBytes

end Fetch

/-! ## What it reads -/

/-- The output type in the bytes of a witness; empty when there is none. -/
def WitnessCodec.outputType (codec : WitnessCodec) (rawBytes : Bytes) : Bytes :=
  if rawBytes = [] then []
  else ((codec.fromSlice rawBytes).toOption.bind WitnessArgs.outputType).getD []

/-- The output type of `w` survives its encoding.  A witness that is marked empty need
not be encoded, so nothing is asked of one that has an output type all the same. -/
def WitnessCodec.RoundTrips (codec : WitnessCodec) (w : WitnessEx) : Prop :=
  w.empty = false ∨ w.outputType = [] → codec.outputType (codec.packed w) = w.outputType

section Fetched

variable {codec : WitnessCodec} {getTransaction : GetTransaction} {txHash : Byte32}
  {outputIndex : U32}

/-- The address is the output type at the reader's index, decoded when it is not
empty. -/
theorem fetchFiberAddress_eq {view : TransactionView}
    (hsent : getTransaction txHash = .ok (some ⟨some (.json view)⟩)) :
    fetchFiberAddress codec getTransaction txHash outputIndex =
      (view.witnesses[view.inputs.length + outputIndex.toNat]?).bind fun rawBytes =>
        if codec.outputType rawBytes = [] then none else fromUtf8 (codec.outputType rawBytes) := by
  simp only [fetchFiberAddress, hsent, Except.toOption, Option.bind_eq_bind, Option.bind_some]
  congr 1
  funext rawBytes
  unfold WitnessCodec.outputType
  by_cases hraw : rawBytes = []
  · simp [hraw]
  · rw [if_neg hraw, if_neg hraw]
    cases codec.fromSlice rawBytes with
    | error e => rfl
    | ok witnessArgs =>
        cases houtput : witnessArgs.outputType with
        | none => simp [Except.toOption, houtput]
        | some bytes => simp [Except.toOption, houtput]

/-- Read from a skeleton that has been sent: the witness at the reader's index is the
one that counts. -/
theorem fetchFiberAddress_view {sk : TransactionSkeleton}
    (hsent : getTransaction txHash = .ok (some ⟨some (.json (sk.view codec))⟩))
    (hround : ∀ w ∈ sk.witnesses, codec.RoundTrips w) {w : WitnessEx}
    (hw : sk.witnesses[sk.inputs.length + outputIndex.toNat]? = some w)
    (hread : w.empty = false ∨ w.outputType = []) :
    fetchFiberAddress codec getTransaction txHash outputIndex =
      if w.outputType = [] then none else fromUtf8 w.outputType := by
  have houtput : codec.outputType (codec.packed w) = w.outputType :=
    hround w (List.mem_of_getElem? hw) hread
  rw [fetchFiberAddress_eq hsent]
  simp [TransactionSkeleton.view, hw, houtput]

/-- Without a witness at the reader's index there is no address. -/
theorem fetchFiberAddress_view_none {sk : TransactionSkeleton}
    (hsent : getTransaction txHash = .ok (some ⟨some (.json (sk.view codec))⟩))
    (hnone : sk.witnesses[sk.inputs.length + outputIndex.toNat]? = none) :
    fetchFiberAddress codec getTransaction txHash outputIndex = none := by
  rw [fetchFiberAddress_eq hsent]
  simp [TransactionSkeleton.view, List.getElem?_eq_none_iff.mp hnone]

end Fetched

/-! ## What is written -/

/-- No witness has an output type.  That is so of a skeleton that is new, and it stays so until
an address is written. -/
def NoOutputType (witnesses : List WitnessEx) : Prop := ∀ w ∈ witnesses, w.outputType = []

/-- `new` is `old` with other entries appended, or the rest of its entries rewritten: the output
types stay in place, and there are no others.  This is the invariant of what may come after the
address has been written. -/
structure KeepsOutputTypes (old new : List WitnessEx) : Prop where
  kept : ∀ {i : ℕ} {w : WitnessEx}, old[i]? = some w → ∃ w', new[i]? = some w' ∧
    w'.outputType = w.outputType ∧ (w.empty = false → w'.empty = false)
  fresh : ∀ {i : ℕ} {w' : WitnessEx}, old.length ≤ i → new[i]? = some w' → w'.outputType = []

/-- What the operations of the framework do to the witnesses.  They may sign, and they may add
witnesses, as long as the output types stay. -/
def DocumentedWitnesses
    (runBasic : BasicOperation → TransactionSkeleton → Outcome String TransactionSkeleton) :
    Prop :=
  ∀ {operation sk sk'}, runBasic operation sk = .ok sk' →
    KeepsOutputTypes sk.witnesses sk'.witnesses

theorem KeepsOutputTypes.refl (witnesses : List WitnessEx) :
    KeepsOutputTypes witnesses witnesses where
  kept hw := ⟨_, hw, rfl, id⟩
  fresh hle hw' := by
    obtain ⟨hlt, -⟩ := List.getElem?_eq_some_iff.mp hw'
    omega

theorem KeepsOutputTypes.noOutputType {old new : List WitnessEx} (h : KeepsOutputTypes old new)
    (hold : NoOutputType old) : NoOutputType new := by
  intro w' hw'
  obtain ⟨i, hi⟩ := List.mem_iff_getElem?.mp hw'
  cases hw : old[i]? with
  | none => exact h.fresh (List.getElem?_eq_none_iff.mp hw) hi
  | some w =>
      obtain ⟨w'', hw'', houtput, -⟩ := h.kept hw
      obtain rfl := Option.some.inj (hi.symm.trans hw'')
      rw [houtput]
      exact hold w (List.mem_of_getElem? hw)

section Set

variable {sk : TransactionSkeleton} {outputIndex : ℕ} {data : Bytes}

/-- The witnesses after padding reach the index that is written. -/
theorem exists_padded (witnesses : List WitnessEx) (index : ℕ) :
    ∃ w, (witnesses ++ List.replicate (index + 1 - witnesses.length) default)[index]? =
      some w := by
  have hlt : index <
      (witnesses ++ List.replicate (index + 1 - witnesses.length) default).length := by
    rw [List.length_append, List.length_replicate]
    omega
  exact ⟨_, List.getElem?_eq_getElem hlt⟩

/-- The witness is written where the inputs at hand put it. -/
theorem exists_setOutputWitness : ∃ w,
    (sk.setOutputWitness outputIndex data).witnesses[sk.inputs.length + outputIndex]? = some w ∧
      w.outputType = data ∧ w.empty = false := by
  obtain ⟨w, hw⟩ := exists_padded sk.witnesses (sk.inputs.length + outputIndex)
  refine ⟨{ w with outputType := data, empty := false }, ?_, rfl, rfl⟩
  simp [TransactionSkeleton.setOutputWitness, hw]

/-- Every other witness is old, or padding. -/
theorem outputType_of_setOutputWitness {i : ℕ} {w : WitnessEx} (hsk : NoOutputType sk.witnesses)
    (hne : i ≠ sk.inputs.length + outputIndex)
    (hw : (sk.setOutputWitness outputIndex data).witnesses[i]? = some w) : w.outputType = [] := by
  simp only [TransactionSkeleton.setOutputWitness] at hw
  rw [List.getElem?_modify_ne _ _ hne.symm] at hw
  rcases List.mem_append.mp (List.mem_of_getElem? hw) with hmem | hmem
  · exact hsk w hmem
  · rw [List.eq_of_mem_replicate hmem]
    rfl

end Set

section Run

variable {rpc : RPC}
  {runBasic : BasicOperation → TransactionSkeleton → Outcome String TransactionSkeleton}
  {sk sk' : TransactionSkeleton}

/-- Operations of the framework write no output type. -/
theorem DocumentedWitnesses.noOutputType (doc : DocumentedWitnesses runBasic)
    {operation : Operation} (hbasic : ∀ i data, operation ≠ .setOutputWitness i data)
    (h : operation.run rpc runBasic sk = .ok sk') (hsk : NoOutputType sk.witnesses) :
    NoOutputType sk'.witnesses := by
  cases operation with
  | basic operation => exact (doc h).noOutputType hsk
  | addOpticrumContractCelldep =>
      obtain ⟨typeArgs, -, h⟩ := Outcome.bind_eq_ok_iff.mp h
      exact (doc h).noOutputType hsk
  | setOutputWitness i data => exact absurd rfl (hbasic i data)

/-- An instruction without a write writes none. -/
theorem DocumentedWitnesses.noOutputType_of_run (doc : DocumentedWitnesses runBasic)
    {instruction : Instruction}
    (hbasic : ∀ operation ∈ instruction, ∀ i data, operation ≠ .setOutputWitness i data)
    (h : runInstruction rpc runBasic instruction sk = .ok sk') (hsk : NoOutputType sk.witnesses) :
    NoOutputType sk'.witnesses := by
  induction instruction generalizing sk with
  | nil =>
      obtain rfl := runInstruction_nil_eq_ok_iff.mp h
      exact hsk
  | cons operation operations ih =>
      obtain ⟨sk₁, h₁, h⟩ := runInstruction_cons_eq_ok_iff.mp h
      obtain ⟨hfirst, hrest⟩ := List.forall_mem_cons.mp hbasic
      exact ih hrest h (doc.noOutputType hfirst h₁ hsk)

end Run

end Opticrum
