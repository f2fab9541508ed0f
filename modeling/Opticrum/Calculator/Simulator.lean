import Opticrum.Calculator.Cinnabar

/-!
# A framework that does what is documented

The documentation of the framework is a hypothesis of every result about the
builders.  This one meets it: it serves the operations from the answers of a node
and a wallet of cells, appending every time.  It knows one contract; dep groups
and the operations that only orders with tokens need are not simulated.

## What it is for

`documented_simulate` and its siblings are what makes the hypotheses about the framework
satisfiable, together with those about deps and witnesses.  A result about builders is applied
to this framework at one place at least, with a node made of a list of cells, `RPC.ofCells`.

It always appends, also what is there already.  The documentation permits more, and the results
hold for every framework that keeps to it.
-/

namespace Opticrum

open Rust Ckb

/-- The capacity an adjustment gives, wrapping at the edges. -/
def CapacityAdjustment.apply : CapacityAdjustment → U64 → U64
  | .keep, old => old
  | .add capacity, old => old + capacity
  | .subtract capacity, old => old - capacity

/-- Off the edges the simulated adjustment is the documented one.  At the edges the
documentation says nothing. -/
theorem CapacityAdjustment.adjusts_apply (adjust : CapacityAdjustment) (old : U64) :
    adjust.Adjusts old (adjust.apply old) := by
  cases adjust with
  | keep => rfl
  | add capacity =>
      intro hlt
      rw [apply, BitVec.toNat_add, Nat.mod_eq_of_lt hlt]
  | subtract capacity =>
      intro hle
      exact BitVec.toNat_sub_of_le hle

/-- `Option::ok_or`: what was found, or an error. -/
def found {α : Type} (x : Option α) : Outcome String α :=
  match x with
  | some a => .ok a
  | none => .err "not found"

/-- An operation that looks something up succeeds with what is there. -/
theorem found_eq_ok_iff {α : Type} {x : Option α} {a : α} : found x = .ok a ↔ x = some a := by
  cases x with
  | none => simp [found]
  | some b => simp [found]

section Simulate

variable (rpc : RPC) (contract : LiveCell) (wallet : List LiveCell)

/-- One operation, served from the node and the wallet. -/
def simulate (operation : BasicOperation) (sk : TransactionSkeleton) :
    Outcome String TransactionSkeleton :=
  match operation with
  | .addCellDep _ txHash index .code _ => do
      let c ← found (rpc.liveCell ⟨txHash, index⟩)
      .ok { sk with cellDeps := sk.cellDeps ++ [.code c] }
  | .addCellDepByTypeId _ _ .code _ => .ok { sk with cellDeps := sk.cellDeps ++ [.code contract] }
  | .addHeaderDepByBlockNumber n => do
      let header ← found (rpc.header n)
      .ok { sk with headerDeps := sk.headerDeps ++ [header] }
  | .addHeaderDepByCellDepIndex i => do
      let c ← found ((entryAt sk.cellDeps i).bind fun dep => dep.cells.head?)
      .ok { sk with headerDeps := sk.headerDeps ++ [c.header] }
  | .addHeaderDepByInputIndex i => do
      let c ← found (entryAt sk.inputs i)
      .ok { sk with headerDeps := sk.headerDeps ++ [c.header] }
  | .addInputCellByAddress address => do
      let c ← found (wallet.find? (·.lock = address.script))
      .ok { sk with inputs := sk.inputs ++ [c] }
  | .addInputCellByOutPoint txHash index _ => do
      let c ← found (rpc.liveCell ⟨txHash, index⟩)
      .ok { sk with inputs := sk.inputs ++ [c] }
  | .addOutputCellByInputIndex i data lockScript typeScript adjustCapacity => do
      let c ← found (entryAt sk.inputs i)
      let capacity := adjustCapacity.apply c.capacity
      let output := copiedOutput rpc c.toCell data lockScript typeScript capacity
      .ok { sk with outputs := sk.outputs ++ [output] }
  | .addCellDep _ _ _ .depGroup _ => .err "not simulated"
  | .addCellDepByTypeId _ _ .depGroup _ => .err "not simulated"
  | .addXudtCelldep => .err "not simulated"
  | .addOutputCell _ _ _ _ _ _ => .err "not simulated"

/-- The same with the operations that make an output of their own.  The output holds
what it occupies and the capacity asked for; the token standard needs no dep. -/
def simulateOutputs (operation : BasicOperation) (sk : TransactionSkeleton) :
    Outcome String TransactionSkeleton :=
  match operation with
  | .addXudtCelldep => .ok sk
  | .addOutputCell lockScript typeScript data capacity false false =>
      let output : Cell :=
        ⟨0, lockScript.toScript rpc, typeScript.map (ScriptEx.toScript rpc), data⟩
      let held := BitVec.ofNat 64 output.occupied + capacity
      .ok { sk with outputs := sk.outputs ++ [{ output with capacity := held }] }
  | operation => simulate rpc contract wallet operation sk

end Simulate

/-- **The simulated framework is documented.** Each operation appends one thing, and what it
appends is what the node or the wallet has. -/
theorem documented_simulate {rpc : RPC} {contract : LiveCell} {wallet : List LiveCell}
    (hcontract : rpc.Live contract) : Documented rpc (simulate rpc contract wallet) where
  addCellDep := by
    intro _ _ _ _ _ _ h
    obtain ⟨c, hc, h⟩ := Outcome.bind_eq_ok_iff.mp h
    obtain rfl := Except.ok.inj h
    exact ⟨c, _, found_eq_ok_iff.mp hc, .inl rfl, rfl⟩
  addCellDepByTypeId := by
    intro _ _ _ _ _ h
    obtain rfl := Except.ok.inj h
    exact ⟨contract, _, hcontract, .inl rfl, rfl⟩
  addHeaderDepByBlockNumber := by
    intro _ _ _ h
    obtain ⟨header, hheader, h⟩ := Outcome.bind_eq_ok_iff.mp h
    obtain rfl := Except.ok.inj h
    exact ⟨header, _, found_eq_ok_iff.mp hheader, .inl rfl, rfl⟩
  addHeaderDepByCellDepIndex := by
    intro _ _ _ c h hentry
    obtain ⟨c', hc, h⟩ := Outcome.bind_eq_ok_iff.mp h
    rw [found_eq_ok_iff, hentry] at hc
    obtain rfl : c = c' := Option.some.inj hc
    obtain rfl := Except.ok.inj h
    exact ⟨_, .inl rfl, rfl⟩
  addHeaderDepByInputIndex := by
    intro _ _ _ c h hentry
    obtain ⟨c', hc, h⟩ := Outcome.bind_eq_ok_iff.mp h
    obtain rfl : c = c' := Option.some.inj (hentry.symm.trans (found_eq_ok_iff.mp hc))
    obtain rfl := Except.ok.inj h
    exact ⟨_, .inl rfl, rfl⟩
  addInputCellByAddress := by
    intro _ _ _ h
    obtain ⟨c, hc, h⟩ := Outcome.bind_eq_ok_iff.mp h
    obtain rfl := Except.ok.inj h
    refine ⟨[c], List.cons_ne_nil _ _, fun p hp => ?_, rfl⟩
    rw [List.mem_singleton.mp hp]
    simpa using List.find?_some (found_eq_ok_iff.mp hc)
  addInputCellByOutPoint := by
    intro _ _ _ _ _ h
    obtain ⟨c, hc, h⟩ := Outcome.bind_eq_ok_iff.mp h
    obtain rfl := Except.ok.inj h
    exact ⟨c, found_eq_ok_iff.mp hc, fun _ => rfl⟩
  addOutputCellByInputIndex := by
    intro _ _ _ _ _ _ _ c h hentry
    obtain ⟨c', hc, h⟩ := Outcome.bind_eq_ok_iff.mp h
    obtain rfl : c = c' := Option.some.inj (hentry.symm.trans (found_eq_ok_iff.mp hc))
    obtain rfl := Except.ok.inj h
    exact ⟨_, CapacityAdjustment.adjusts_apply _ _, rfl⟩

/-- So is the one that makes outputs of its own.  Its operations without one are those above,
and the two it adds are checked here. -/
theorem documentedOutputs_simulate {rpc : RPC} {contract : LiveCell} {wallet : List LiveCell}
    (hcontract : rpc.Live contract) :
    DocumentedOutputs rpc (simulateOutputs rpc contract wallet) where
  addCellDep := by
    intro _ _ _ _ _ _ h
    simp only [simulateOutputs] at h
    exact (documented_simulate hcontract).addCellDep h
  addCellDepByTypeId := by
    intro _ _ _ _ _ h
    simp only [simulateOutputs] at h
    exact (documented_simulate hcontract).addCellDepByTypeId h
  addHeaderDepByBlockNumber := by
    intro _ _ _ h
    simp only [simulateOutputs] at h
    exact (documented_simulate hcontract).addHeaderDepByBlockNumber h
  addHeaderDepByCellDepIndex := by
    intro _ _ _ _ h
    simp only [simulateOutputs] at h
    exact (documented_simulate hcontract).addHeaderDepByCellDepIndex h
  addHeaderDepByInputIndex := by
    intro _ _ _ _ h
    simp only [simulateOutputs] at h
    exact (documented_simulate hcontract).addHeaderDepByInputIndex h
  addInputCellByAddress := by
    intro _ _ _ h
    simp only [simulateOutputs] at h
    exact (documented_simulate hcontract).addInputCellByAddress h
  addInputCellByOutPoint := by
    intro _ _ _ _ _ h
    simp only [simulateOutputs] at h
    exact (documented_simulate hcontract).addInputCellByOutPoint h
  addOutputCellByInputIndex := by
    intro _ _ _ _ _ _ _ _ h
    simp only [simulateOutputs] at h
    exact (documented_simulate hcontract).addOutputCellByInputIndex h
  addXudtCelldep := by
    intro sk sk' h
    obtain rfl := Except.ok.inj h
    exact ⟨_, rfl⟩
  addOutputCell := by
    intro lockScript typeScript data capacity absoluteCapacity sk sk' h
    cases absoluteCapacity with
    | true => exact absurd h (Outcome.err_ne_ok _ _)
    | false =>
        obtain rfl := Except.ok.inj h
        exact ⟨_, rfl⟩

/-- An output made without a capacity asked for holds what it occupies and the addition. -/
theorem documentedCapacity_simulate {rpc : RPC} {contract : LiveCell} {wallet : List LiveCell}
    (hcontract : rpc.Live contract) :
    DocumentedCapacity rpc (simulateOutputs rpc contract wallet) where
  toDocumentedOutputs := documentedOutputs_simulate hcontract
  onTop := by
    intro lockScript typeScript data capacity sk sk' o h houtputs hfits
    obtain rfl := Except.ok.inj h
    obtain rfl := List.singleton_inj.mp (List.append_cancel_left houtputs)
    have hoccupied : (⟨0, lockScript.toScript rpc, typeScript.map (ScriptEx.toScript rpc), data⟩ :
        Cell).occupied < 2 ^ 64 := lt_of_le_of_lt (Nat.le_add_right _ _) hfits
    rw [BitVec.toNat_add, toNat_ofNat_of_lt hoccupied]
    exact Nat.mod_eq_of_lt hfits

/-- With a wallet of cells that hold no tokens, the inputs it adds bring none in. -/
theorem documentedTokens_simulate {rpc : RPC} {contract : LiveCell} {wallet : List LiveCell}
    (hcontract : rpc.Live contract) (hwallet : ∀ p ∈ wallet, p.type_ = none) :
    DocumentedTokens rpc (simulateOutputs rpc contract wallet) where
  toDocumentedOutputs := documentedOutputs_simulate hcontract
  headerDepMovesNothing := by
    intro i sk sk' h
    obtain ⟨c, -, h⟩ := Outcome.bind_eq_ok_iff.mp h
    obtain rfl := Except.ok.inj h
    exact ⟨rfl, rfl⟩
  plainInputs := by
    intro address sk sk' h p hp
    obtain ⟨c, hc, h⟩ := Outcome.bind_eq_ok_iff.mp h
    obtain rfl := Except.ok.inj h
    rcases List.mem_append.mp hp with hp | hp
    · exact .inl hp
    · rw [List.mem_singleton.mp hp]
      exact .inr (hwallet c (List.mem_of_find?_eq_some (found_eq_ok_iff.mp hc)))

/-- The node that answers from a list of cells and the headers of a chain. -/
def RPC.ofCells (cells : List LiveCell) (header : U64 → Header) (codeHash : Byte32)
    (hheader : ∀ n, (header n).number = n)
    (hcells : ∀ c ∈ cells, c.occupied ≤ c.capacity.toNat ∧ c.header = header c.header.number) :
    RPC where
  network := .testnet
  liveCell p := cells.find? (·.outPoint = p)
  header n := some (header n)
  codeHash _ := codeHash
  liveCell_outPoint h := by simpa using List.find?_some h
  liveCell_funded h := (hcells _ (List.mem_of_find?_eq_some h)).1
  liveCell_header h := by rw [← (hcells _ (List.mem_of_find?_eq_some h)).2]
  header_number h := by rw [← Option.some.inj h, hheader]

/-! ## Deps -/

section Deps

variable {rpc : RPC} {contract : LiveCell} {wallet : List LiveCell} {sk sk' : TransactionSkeleton}

/-- An operation that looks something up and then appends keeps the deps in front.  The
hypothesis is about the skeleton it would return. -/
theorem cellDeps_of_found {α : Type} {x : Option α} {f : α → TransactionSkeleton}
    (h : (found x >>= fun a => .ok (f a)) = .ok sk') (hf : ∀ a, sk.cellDeps <+: (f a).cellDeps) :
    sk.cellDeps <+: sk'.cellDeps := by
  obtain ⟨a, -, h⟩ := Outcome.bind_eq_ok_iff.mp h
  obtain rfl := Except.ok.inj h
  exact hf a

/-- Deps are only appended. -/
theorem keepsDeps_simulate : KeepsDeps (simulate rpc contract wallet) := by
  intro operation sk sk' h
  cases operation with
  | addCellDep name txHash index depType withData =>
      cases depType with
      | code => exact cellDeps_of_found h fun _ => List.prefix_append _ _
      | depGroup => exact absurd h (Outcome.err_ne_ok _ _)
  | addCellDepByTypeId name typeArgs depType withData =>
      cases depType with
      | code =>
          obtain rfl := Except.ok.inj h
          exact List.prefix_append _ _
      | depGroup => exact absurd h (Outcome.err_ne_ok _ _)
  | addXudtCelldep => exact absurd h (Outcome.err_ne_ok _ _)
  | addHeaderDepByBlockNumber n => exact cellDeps_of_found h fun _ => List.prefix_rfl
  | addHeaderDepByCellDepIndex i => exact cellDeps_of_found h fun _ => List.prefix_rfl
  | addHeaderDepByInputIndex i => exact cellDeps_of_found h fun _ => List.prefix_rfl
  | addInputCellByAddress address => exact cellDeps_of_found h fun _ => List.prefix_rfl
  | addInputCellByOutPoint txHash index since =>
      exact cellDeps_of_found h fun _ => List.prefix_rfl
  | addOutputCell lockScript typeScript data capacity absoluteCapacity typeId =>
      exact absurd h (Outcome.err_ne_ok _ _)
  | addOutputCellByInputIndex i data lockScript typeScript adjustCapacity =>
      exact cellDeps_of_found h fun _ => List.prefix_rfl

/-- No operation takes a dep away. -/
theorem keepsDeps_simulateOutputs : KeepsDeps (simulateOutputs rpc contract wallet) := by
  intro operation sk sk' h
  unfold simulateOutputs at h
  split at h
  · obtain rfl := Except.ok.inj h
    exact List.prefix_rfl
  · obtain rfl := Except.ok.inj h
    exact List.prefix_rfl
  · exact keepsDeps_simulate _ _ _ h

end Deps

/-! ## Witnesses -/

section Witnesses

variable {rpc : RPC} {contract : LiveCell} {wallet : List LiveCell} {operation : BasicOperation}
  {sk sk' : TransactionSkeleton}

/-- An operation that looks something up does not touch the witnesses, when what it does with it
does not. -/
theorem witnesses_of_found {α : Type} {x : Option α} {f : α → TransactionSkeleton}
    (h : (found x >>= fun a => .ok (f a)) = .ok sk') (hf : ∀ a, (f a).witnesses = sk.witnesses) :
    sk'.witnesses = sk.witnesses := by
  obtain ⟨a, -, h⟩ := Outcome.bind_eq_ok_iff.mp h
  obtain rfl := Except.ok.inj h
  exact hf a

/-- No operation touches a witness. -/
theorem witnesses_simulate (h : simulate rpc contract wallet operation sk = .ok sk') :
    sk'.witnesses = sk.witnesses := by
  cases operation with
  | addCellDep name txHash index depType withData =>
      cases depType with
      | code => exact witnesses_of_found h fun _ => rfl
      | depGroup => exact absurd h (Outcome.err_ne_ok _ _)
  | addCellDepByTypeId name typeArgs depType withData =>
      cases depType with
      | code =>
          obtain rfl := Except.ok.inj h
          rfl
      | depGroup => exact absurd h (Outcome.err_ne_ok _ _)
  | addXudtCelldep => exact absurd h (Outcome.err_ne_ok _ _)
  | addHeaderDepByBlockNumber n => exact witnesses_of_found h fun _ => rfl
  | addHeaderDepByCellDepIndex i => exact witnesses_of_found h fun _ => rfl
  | addHeaderDepByInputIndex i => exact witnesses_of_found h fun _ => rfl
  | addInputCellByAddress address => exact witnesses_of_found h fun _ => rfl
  | addInputCellByOutPoint txHash index since => exact witnesses_of_found h fun _ => rfl
  | addOutputCell lockScript typeScript data capacity absoluteCapacity typeId =>
      exact absurd h (Outcome.err_ne_ok _ _)
  | addOutputCellByInputIndex i data lockScript typeScript adjustCapacity =>
      exact witnesses_of_found h fun _ => rfl

/-- Witnesses are written by one operation of the calculator, and by none of the framework. -/
theorem witnesses_simulateOutputs
    (h : simulateOutputs rpc contract wallet operation sk = .ok sk') :
    sk'.witnesses = sk.witnesses := by
  unfold simulateOutputs at h
  split at h
  · obtain rfl := Except.ok.inj h
    rfl
  · obtain rfl := Except.ok.inj h
    rfl
  · exact witnesses_simulate h

end Witnesses

end Opticrum
