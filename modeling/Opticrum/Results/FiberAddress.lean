import Opticrum.Calculator.Molecule
import Opticrum.Results.Builders

/-!
# The address of a created order

`SetOutputWitness` counts the inputs when it runs, and is documented to run after the
last of them has been added.  `createOrder` lists it before the transaction is
balanced.  The reader counts the inputs of the transaction that was sent, so it looks
where the address was written only when no input was added in between.

## What comes in between

`AppendsInputs k` is all that is supposed of the instructions behind the builder: they append
`k` inputs and leave the output types where they are.  That covers balancing, which appends the
cells that pay, and signing, which fills in locks.

The address is where the writer put it, at the position that was `inputs.length` then.  The
reader goes to `inputs.length + k`, and finds an output type there only when `k` is zero.  The
order itself is the first output in any case.
-/

namespace Opticrum

open Rust Ckb

/-- A skeleton that no output has been added to, nor a witness of one. -/
structure WithoutOutputs (sk : TransactionSkeleton) : Prop where
  outputs : sk.outputs = []
  witnesses : NoOutputType sk.witnesses

/-- Later instructions add `k` inputs, and perhaps outputs. -/
structure AppendsInputs (k : ℕ) (sk sk' : TransactionSkeleton) : Prop where
  inputs : ∃ more, sk'.inputs = sk.inputs ++ more ∧ more.length = k
  outputs : ∃ more, sk'.outputs = sk.outputs ++ more
  witnesses : KeepsOutputTypes sk.witnesses sk'.witnesses

section Survives

variable {rpc : RPC}
  {runBasic : BasicOperation → TransactionSkeleton → Outcome String TransactionSkeleton}
  {codec : WitnessCodec} {getTransaction : GetTransaction} {txHash : Byte32}
  {sk₀ sk sk' : TransactionSkeleton} {buyer : Address} {orderArgs : OrderArgs}
  {orderData : OrderData} {rentCapacity : U64} {xudtTypeScript : Option Script}
  {address : String} {k : ℕ}

theorem AppendsInputs.length_inputs (h : AppendsInputs k sk sk') :
    sk'.inputs.length = sk.inputs.length + k := by
  obtain ⟨more, hinputs, hlength⟩ := h.inputs
  rw [hinputs, List.length_append, hlength]

/-- The order is the first output. -/
theorem DocumentedOutputs.createOrder_output (doc : DocumentedOutputs rpc runBasic)
    (hstart : sk₀.outputs = [])
    (hbuilt : runInstruction rpc runBasic (createOrder buyer orderArgs orderData rentCapacity
      xudtTypeScript (some address)) sk₀ = .ok sk) :
    ∃ o d, sk.outputs[0]? = some o ∧ IsOrder o orderArgs d := by
  obtain ⟨party, deps, o, -, hlock, -, hdata, hdraft⟩ := doc.createOrder_draft hbuilt
  refine ⟨o, _, ?_, isOrder_of_toBytes (by rw [hlock]) hdata⟩
  rw [hdraft, hstart]
  rfl

/-- An order that has been built has its address in the witness at the number of its
inputs, and no other witness has an output type. -/
theorem DocumentedWitnesses.createOrder_witness (hwitnesses : DocumentedWitnesses runBasic)
    (hstart : NoOutputType sk₀.witnesses)
    (hbuilt : runInstruction rpc runBasic (createOrder buyer orderArgs orderData rentCapacity
      xudtTypeScript (some address)) sk₀ = .ok sk) :
    (∃ w, sk.witnesses[sk.inputs.length]? = some w ∧ w.outputType = address.toUTF8.toList ∧
      w.empty = false) ∧
    ∀ {i : ℕ} {w : WitnessEx}, i ≠ sk.inputs.length → sk.witnesses[i]? = some w →
      w.outputType = [] := by
  obtain ⟨sk₁, hoperations, hwrite⟩ := runInstruction_append_eq_ok_iff.mp hbuilt
  obtain rfl := Except.ok.inj (runInstruction_singleton_eq_ok_iff.mp hwrite)
  have hplain : NoOutputType sk₁.witnesses := by
    refine hwitnesses.noOutputType_of_run ?_ hoperations hstart
    cases xudtTypeScript <;> simp
  exact ⟨exists_setOutputWitness, fun hne hw => outputType_of_setOutputWitness hplain hne hw⟩

/-- **The address survives** exactly when no input is added after the order has been built.

The writer counts the position of the witness from the inputs of the draft, and the reader from
those of the transaction.  Balancing, which adds the inputs that pay for the order, is what
comes in between. -/
theorem fiberAddress_survives_iff (doc : DocumentedOutputs rpc runBasic)
    (hwitnesses : DocumentedWitnesses runBasic) (hstart : WithoutOutputs sk₀)
    (haddress : address ≠ "")
    (hbuilt : runInstruction rpc runBasic (createOrder buyer orderArgs orderData rentCapacity
      xudtTypeScript (some address)) sk₀ = .ok sk)
    (hlater : AppendsInputs k sk sk') (hround : ∀ w ∈ sk'.witnesses, codec.RoundTrips w)
    (hsent : getTransaction txHash = .ok (some ⟨some (.json (sk'.view codec))⟩)) :
    (∃ o d, sk'.outputs[0]? = some o ∧ IsOrder o orderArgs d) ∧
      (fetchFiberAddress codec getTransaction txHash 0 = some address ↔ k = 0) := by
  obtain ⟨⟨w, hw, hwrite, hset⟩, hother⟩ := hwitnesses.createOrder_witness hstart.witnesses hbuilt
  have hindex : sk'.inputs.length + (0 : U32).toNat = sk.inputs.length + k := hlater.length_inputs
  refine ⟨?_, ?_⟩
  · obtain ⟨o, d, ho, horder⟩ := doc.createOrder_output hstart.outputs hbuilt
    obtain ⟨more, hmore⟩ := hlater.outputs
    obtain ⟨hlt, -⟩ := List.getElem?_eq_some_iff.mp ho
    exact ⟨o, d, by rw [hmore, List.getElem?_append_left hlt, ho], horder⟩
  · constructor
    · intro hfetch
      by_contra hk
      -- the reader looks past the address, where there is no output type
      cases hread : sk'.witnesses[sk'.inputs.length + (0 : U32).toNat]? with
      | none =>
          rw [fetchFiberAddress_view_none hsent hread] at hfetch
          simp at hfetch
      | some w' =>
          have hempty : w'.outputType = [] := by
            rw [hindex] at hread
            cases hold : sk.witnesses[sk.inputs.length + k]? with
            | none => exact hlater.witnesses.fresh (List.getElem?_eq_none_iff.mp hold) hread
            | some v =>
                obtain ⟨v', hv', houtput, -⟩ := hlater.witnesses.kept hold
                obtain rfl := Option.some.inj (hread.symm.trans hv')
                rw [houtput]
                exact hother (by omega) hold
          rw [fetchFiberAddress_view hsent hround hread (.inr hempty), if_pos hempty] at hfetch
          simp at hfetch
    · rintro rfl
      obtain ⟨w', hw', houtput, hkept⟩ := hlater.witnesses.kept hw
      rw [← Nat.add_zero sk.inputs.length, ← hindex] at hw'
      rw [fetchFiberAddress_view hsent hround hw' (.inl (hkept hset)), houtput, hwrite,
        if_neg (mt toUTF8_eq_nil_iff.mp haddress), fromUtf8_toUTF8]

end Survives

/-! ## In the market -/

namespace Market

/-- The framework, with the operations that make outputs. -/
def orderFramework (operation : BasicOperation) (sk : TransactionSkeleton) :
    Outcome String TransactionSkeleton :=
  simulateOutputs node contractCell [sellerCell, buyerCell] operation sk

theorem documentedOutputs_orderFramework : DocumentedOutputs node orderFramework :=
  documentedOutputs_simulate (show node.Live contractCell by rfl)

theorem documentedWitnesses_orderFramework : DocumentedWitnesses orderFramework := by
  intro operation sk sk' h
  rw [witnesses_simulateOutputs h]
  exact .refl sk.witnesses

def fiberAddress : String := "/ip4/192.168.1.1/tcp/9735"

/-- The buyer orders with an address. -/
def orderWithAddress : Instruction :=
  createOrder ⟨buyerLock⟩ orderArgs ⟨0, 100000000000, 3⟩ 100000 none (some fiberAddress)

/-- Another cell of the buyer, to pay the fee with. -/
def feeCell : LiveCell :=
  partyCell buyerLock 10000000000 ⟨Vector.replicate 32 0xb0, 1⟩ (headerAt 1)

/-- A node that knows one transaction. -/
def sent (sk : TransactionSkeleton) : GetTransaction :=
  fun _ => .ok (some ⟨some (.json (sk.view Molecule.codec))⟩)

/-- What building the order gives: one input, and the address in the second witness. -/
theorem orderWithAddress_built : ∃ sk,
    runInstruction node orderFramework orderWithAddress .new = .ok sk ∧ sk.inputs = [buyerCell] ∧
      sk.witnesses = [default, { (default : WitnessEx) with
        outputType := fiberAddress.toUTF8.toList, empty := false }] :=
  ⟨_, rfl, rfl, rfl⟩

/-- The witnesses of such a skeleton survive their encoding. -/
theorem roundTrips_orderWithAddress {sk : TransactionSkeleton}
    (h : sk.witnesses = [default, { (default : WitnessEx) with
      outputType := fiberAddress.toUTF8.toList, empty := false }]) :
    ∀ w ∈ sk.witnesses, Molecule.codec.RoundTrips w := by
  have hlength : fiberAddress.toUTF8.toList.length = 25 := by
    rw [toList_eq]
    decide
  rw [h]
  simp only [List.forall_mem_cons]
  refine ⟨Molecule.roundTrips (by decide), Molecule.roundTrips ?_, List.forall_mem_nil _⟩
  rw [hlength]
  decide

/-- Sent as it was built, the transaction gives the address back. -/
theorem orderWithAddress_found : ∃ sk,
    runInstruction node orderFramework orderWithAddress .new = .ok sk ∧
      fetchFiberAddress Molecule.codec (sent sk) (Vector.replicate 32 0) 0 = some fiberAddress := by
  obtain ⟨sk, hbuilt, -, hwitnesses⟩ := orderWithAddress_built
  have hlater : AppendsInputs 0 sk sk :=
    ⟨⟨[], by simp⟩, ⟨[], by simp⟩, .refl sk.witnesses⟩
  have haddress : fiberAddress ≠ "" := by decide
  exact ⟨sk, hbuilt, (fiberAddress_survives_iff documentedOutputs_orderFramework
    documentedWitnesses_orderFramework ⟨rfl, by simp [NoOutputType, TransactionSkeleton.new]⟩
    haddress hbuilt hlater (roundTrips_orderWithAddress hwitnesses) rfl).2.mpr rfl⟩

/-- With one more input, for the fee, the reader looks behind the address. -/
theorem balanced_orderWithAddress_lost : ∃ sk sk',
    runInstruction node orderFramework orderWithAddress .new = .ok sk ∧ AppendsInputs 1 sk sk' ∧
      (∀ w ∈ sk'.witnesses, Molecule.codec.RoundTrips w) ∧
        fetchFiberAddress Molecule.codec (sent sk') (Vector.replicate 32 0) 0 = none := by
  obtain ⟨sk, hbuilt, hinputs, hwitnesses⟩ := orderWithAddress_built
  refine ⟨sk, { sk with inputs := sk.inputs ++ [feeCell] }, hbuilt,
    ⟨⟨[feeCell], rfl, rfl⟩, ⟨[], by simp⟩, .refl sk.witnesses⟩,
    roundTrips_orderWithAddress hwitnesses, ?_⟩
  refine fetchFiberAddress_view_none rfl ?_
  rw [hinputs, hwitnesses]
  rfl

end Market

end Opticrum
