import Opticrum.Contract.Lifecycle

/-!
# Escrows on a chain

A chain holds many escrows, and transactions of anybody come in any order.  `Commits`
is what the chain does with a transaction: it takes the consumed cells out of the live
ones, puts the outputs in, under fresh out points and with the header of the block, and
it does so only when the contract accepts.  What else a node demands would only leave
fewer histories.

`escrowAfter` follows one escrow through a history: where a transaction consumes its
cell, it goes on in the first Opticrum output, or ends.  `escrowMoves` are the moves it
makes on the way.

## Fresh out points

An output is named by the hash of its transaction and its position.  `Commits` asks for out
points that no live cell has, and `Commits.of_txHash` gets them from a hash that no live cell
has.  The positions are 32-bit words, so two outputs of one transaction are told apart only
below 2³² of them; nothing here needs more.

## Back to the lifecycle

`Commits.step` is the bridge: a transaction that consumes the cell of an escrow and no other
Opticrum cell is a step of that escrow, with the ordering of blocks provided by the chain.
-/

namespace Opticrum

open Rust Ckb TransitionSystem

/-- The live cells of a chain.  None of them comes from a block after the tip.  Cells of other
contracts and of the parties are among them. -/
structure Chain where
  live : List LiveCell
  tip : ℕ
  dated : ∀ c ∈ live, c.block ≤ tip

/-- A transaction in a block: the hash its outputs are named by, and the header of the
block. -/
structure Committed where
  tx : Transaction
  txHash : Byte32
  header : Header

/-- The cells a committed transaction creates.  They all have the header of its block, which is
where the rent of a new match starts. -/
def Committed.created (m : Committed) : List LiveCell :=
  m.tx.outputs.mapIdx fun i o => ⟨o, ⟨m.txHash, BitVec.ofNat 32 i⟩, m.header⟩

/-- The cells created are the outputs, each with its out point and the header of the block. -/
theorem Committed.map_created (m : Committed) : m.created.map LiveCell.toCell = m.tx.outputs := by
  refine List.ext_getElem (by simp [created]) fun i _ _ => ?_
  simp [created]

/-- They are from the block of the transaction. -/
theorem Committed.header_of_created {m : Committed} {c : LiveCell} (hc : c ∈ m.created) :
    c.header = m.header := by
  obtain ⟨i, hi, rfl⟩ := List.mem_mapIdx.mp hc
  rfl

/-- They are under the hash of the transaction. -/
theorem Committed.txHash_of_created {m : Committed} {c : LiveCell} (hc : c ∈ m.created) :
    c.outPoint.txHash = m.txHash := by
  obtain ⟨i, hi, rfl⟩ := List.mem_mapIdx.mp hc
  rfl

/-- The chain after a committed transaction. -/
def Chain.commit (chain : Chain) (m : Committed) (h : chain.tip ≤ m.header.number.toNat) :
    Chain where
  live := chain.live.filter (· ∉ m.tx.inputs) ++ m.created
  tip := m.header.number.toNat
  dated := by
    intro c hc
    rcases List.mem_append.mp hc with hc | hc
    · exact (chain.dated c (List.mem_filter.mp hc).1).trans h
    · rw [LiveCell.block, Committed.header_of_created hc]

/-- The chain commits a transaction: it consumes live cells, the contract accepts it, the
headers it shows are no later than its block, and its outputs are under fresh out points. -/
inductive Commits [ScriptHash] (codeHash : Byte32) : Chain → Committed → Chain → Prop
  | intro {chain : Chain} {m : Committed} (inputs : ∀ c ∈ m.tx.inputs, c ∈ chain.live)
      (accepted : AcceptedBy codeHash m.tx) (block : chain.tip ≤ m.header.number.toNat)
      (headers : ∀ h ∈ m.tx.headerDeps, h.number.toNat ≤ m.header.number.toNat)
      (fresh : ∀ c ∈ m.created, ∀ k ∈ chain.live, c.outPoint ≠ k.outPoint) :
      Commits codeHash chain m (chain.commit m block)

/-- The escrow in `c` after a committed transaction.  If its cell was consumed, it goes on in
the first Opticrum output, which is the one the script has compared it with. -/
def follow (codeHash : Byte32) (c : LiveCell) (m : Committed) : Option LiveCell :=
  if c ∈ m.tx.inputs then m.created.find? fun o => isOpticrumLock codeHash o.lock else some c

/-- An escrow after a history: the cell it is in by then, or nothing once it has ended. -/
def escrowAfter (codeHash : Byte32) : Option LiveCell → List Committed → Option LiveCell
  | s, [] => s
  | none, _ :: _ => none
  | some c, m :: history => escrowAfter codeHash (follow codeHash c m) history

/-- The moves an escrow makes in a history.  Transactions that do not consume its cell are no
moves of it, and after its end there are none. -/
def escrowMoves (codeHash : Byte32) :
    Option LiveCell → List Committed → List (Move (Option LiveCell) Transaction)
  | _, [] => []
  | none, _ :: _ => []
  | some c, m :: history =>
      if c ∈ m.tx.inputs then
        ⟨some c, m.tx, follow codeHash c m⟩ :: escrowMoves codeHash (follow codeHash c m) history
      else escrowMoves codeHash (some c) history

section Follow

variable {codeHash : Byte32} {c c' : LiveCell} {m : Committed} {history : List Committed}

/-- A transaction that consumes the cell of an escrow takes it on, or ends it. -/
theorem follow_of_mem (h : c ∈ m.tx.inputs) :
    follow codeHash c m = m.created.find? fun o => isOpticrumLock codeHash o.lock := if_pos h

/-- One that does not leaves it alone. -/
theorem follow_of_not_mem (h : c ∉ m.tx.inputs) : follow codeHash c m = some c := if_neg h

@[simp] theorem escrowAfter_none : escrowAfter codeHash none history = none := by
  cases history <;> rfl

@[simp] theorem escrowMoves_none : escrowMoves codeHash none history = [] := by
  cases history <;> rfl

/-- An escrow goes on in the first Opticrum output. -/
theorem map_follow (h : c ∈ m.tx.inputs) :
    (follow codeHash c m).map LiveCell.toCell = opticrumOutput? codeHash m.tx := by
  rw [follow_of_mem h, opticrumOutput?, ← m.map_created, List.find?_map]
  rfl

/-- Where a consumed escrow goes on, it does so in a new cell of the contract. -/
theorem created_of_follow (h : c ∈ m.tx.inputs) (hfollow : follow codeHash c m = some c') :
    c' ∈ m.created ∧ isOpticrumLock codeHash c'.lock = true := by
  rw [follow_of_mem h] at hfollow
  have hlock := List.find?_some hfollow
  exact ⟨List.mem_of_find?_eq_some hfollow, hlock⟩

variable [ScriptHash] {chain chain' : Chain}

/-- What is committed is accepted. -/
theorem Commits.accepted (h : Commits codeHash chain m chain') : AcceptedBy codeHash m.tx := by
  cases h with
  | intro _ accepted => exact accepted

/-- What is left of an escrow is live. -/
theorem Commits.live_of_follow (h : Commits codeHash chain m chain') (hc : c ∈ chain.live)
    (hlock : isOpticrumLock codeHash c.lock = true) (hfollow : follow codeHash c m = some c') :
    c' ∈ chain'.live ∧ isOpticrumLock codeHash c'.lock = true := by
  cases h with
  | intro =>
      by_cases hin : c ∈ m.tx.inputs
      · obtain ⟨hcreated, hlock'⟩ := created_of_follow hin hfollow
        exact ⟨List.mem_append_right _ hcreated, hlock'⟩
      · rw [follow_of_not_mem hin] at hfollow
        obtain rfl := Option.some.inj hfollow
        exact ⟨List.mem_append_left _ (List.mem_filter.mpr ⟨hc, by simpa using hin⟩), hlock⟩

/-- The outputs of a transaction whose hash no live cell comes from are fresh. -/
theorem Commits.of_txHash (inputs : ∀ c ∈ m.tx.inputs, c ∈ chain.live)
    (accepted : AcceptedBy codeHash m.tx) (block : chain.tip ≤ m.header.number.toNat)
    (headers : ∀ h ∈ m.tx.headerDeps, h.number.toNat ≤ m.header.number.toNat)
    (hhash : ∀ k ∈ chain.live, k.outPoint.txHash ≠ m.txHash) :
    Commits codeHash chain m (chain.commit m block) := by
  refine .intro inputs accepted block headers fun c hc k hk hsame => hhash k hk ?_
  rw [← hsame]
  exact Committed.txHash_of_created hc

/-- A transaction that consumes the cell of an escrow and no other Opticrum cell is a
step of it. -/
theorem Commits.step (h : Commits codeHash chain m chain') (hc : c ∈ chain.live)
    (hlock : isOpticrumLock codeHash c.lock = true) (hin : c ∈ m.tx.inputs)
    (hsolo : (opticrumInputs codeHash m.tx).length ≤ 1) :
    Step codeHash (some c) m.tx (follow codeHash c m) := by
  have hsole : opticrumInputs codeHash m.tx = [c] := by
    have hmem : c ∈ opticrumInputs codeHash m.tx := mem_opticrumInputs.mpr ⟨hin, hlock⟩
    have hlength : (opticrumInputs codeHash m.tx).length = 1 :=
      Nat.le_antisymm hsolo (List.length_pos_of_mem hmem)
    obtain ⟨k, hk⟩ := List.length_eq_one_iff.mp hlength
    rw [hk] at hmem ⊢
    rw [List.mem_singleton.mp hmem]
  have hout : (follow codeHash c m).map LiveCell.toCell = opticrumOutput? codeHash m.tx :=
    map_follow hin
  cases h with
  | intro _ accepted block headers _ =>
      cases hfollow : follow codeHash c m with
      | none =>
          rw [hfollow] at hout
          exact .close hsole accepted hout.symm
      | some c' =>
          rw [hfollow] at hout
          have hheader := Committed.header_of_created (created_of_follow hin hfollow).1
          have hblock : c'.block = m.header.number.toNat := by rw [LiveCell.block, hheader]
          refine .replace hsole accepted hout.symm ?_ ?_
          · rw [hblock]
            exact (chain.dated c hc).trans block
          · rw [hblock]
            exact headers

end Follow

end Opticrum
