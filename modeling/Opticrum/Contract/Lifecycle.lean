import Opticrum.Contract.Acceptance
import Opticrum.Foundation.Run

/-!
# The life of an escrow

A transaction is accepted *for every script group* among its inputs: a node runs
a lock script once per distinct lock.  `AcceptedBy` says so.

`Step` is the lifecycle: the one Opticrum input of an accepted transaction is
replaced by the cell its first Opticrum output becomes, or the escrow is closed
when there is no such output.  States are `some c` for an escrow that sits in the
live cell `c`, and `none` once it is closed; labels are transactions.

## Runs

A run of an escrow is a `TransitionSystem.Run` of `Step`, and the results about every state an
escrow can reach are instances of the rules for runs.  The one step lemma they all start from is
`Step.transition`: a step is one of the five transitions.

## What a step assumes

`Step` demands more than acceptance in two places.  The consumed cell is the only Opticrum
input, since the contract was written for such transactions; those with more inputs are the
subject of results of their own.  And blocks are ordered: the successor is not older than the
cell it replaces, and no header dep is younger than the successor.  The chain guarantees both,
and the contract relies on it for the meaning of its clock.
-/

namespace Opticrum

open Rust Ckb TransitionSystem

/-! ## Groups -/

/-- The inputs under a lock of the contract.  They may be in several groups, one for each
lock. -/
def opticrumInputs (codeHash : Byte32) (tx : Transaction) : List LiveCell :=
  tx.inputs.filter fun c => isOpticrumLock codeHash c.lock

/-- The outputs under a lock of the contract. -/
def opticrumOutputs (codeHash : Byte32) (tx : Transaction) : List Cell :=
  tx.outputs.filter fun o => isOpticrumLock codeHash o.lock

/-- The contract accepts `tx` for every group of inputs it locks.  A transaction without such an
input is accepted: no script of the contract runs. -/
def AcceptedBy [ScriptHash] (codeHash : Byte32) (tx : Transaction) : Prop :=
  ∀ c ∈ opticrumInputs codeHash tx, accepts tx c.lock

/-- The inputs under the contract's lock, whatever their args. -/
theorem mem_opticrumInputs {codeHash : Byte32} {tx : Transaction} {c : LiveCell} :
    c ∈ opticrumInputs codeHash tx ↔ c ∈ tx.inputs ∧ isOpticrumLock codeHash c.lock = true :=
  List.mem_filter

/-- The output the script looks at is the first of those under its lock. -/
theorem opticrumOutput?_eq_head? (codeHash : Byte32) (tx : Transaction) :
    opticrumOutput? codeHash tx = (opticrumOutputs codeHash tx).head? := by
  rw [opticrumOutputs, List.head?_filter, opticrumOutput?]

/-- There is none when no output is under its lock. -/
theorem opticrumOutput?_eq_none_iff {codeHash : Byte32} {tx : Transaction} :
    opticrumOutput? codeHash tx = none ↔ opticrumOutputs codeHash tx = [] := by
  rw [opticrumOutput?_eq_head?, List.head?_eq_none_iff]

/-- A lock of the contract names its code hash, which the running script compares outputs with. -/
theorem codeHash_of_isOpticrumLock {codeHash : Byte32} {lock : Script}
    (h : isOpticrumLock codeHash lock = true) : lock.codeHash = codeHash := by
  simp only [isOpticrumLock, decide_eq_true_eq] at h
  exact h.1

/-- A group of the contract consists of Opticrum inputs. -/
theorem groupInputs_eq_filter {codeHash : Byte32} {lock : Script}
    (h : isOpticrumLock codeHash lock = true) (tx : Transaction) :
    tx.groupInputs lock = (opticrumInputs codeHash tx).filter (·.lock = lock) := by
  rw [Transaction.groupInputs, opticrumInputs, List.filter_filter]
  refine List.filter_congr fun c _ => ?_
  by_cases hc : c.lock = lock
  · simp [hc, h]
  · simp [hc]

/-- Every group has a first cell, and its cells share the lock. -/
theorem groupInputs_of_mem {codeHash : Byte32} {tx : Transaction} {c : LiveCell}
    (hc : c ∈ opticrumInputs codeHash tx) :
    ∃ head rest, tx.groupInputs head.lock = head :: rest ∧ head.lock = c.lock ∧
      head ∈ opticrumInputs codeHash tx := by
  obtain ⟨hin, hlock⟩ := mem_opticrumInputs.mp hc
  have hmem : c ∈ tx.groupInputs c.lock := List.mem_filter.mpr ⟨hin, by simp⟩
  obtain ⟨head, rest, hgroup⟩ := List.exists_cons_of_ne_nil (List.ne_nil_of_mem hmem)
  have heq : head.lock = c.lock := lock_of_groupInputs hgroup
  have hhead : head ∈ tx.groupInputs c.lock := hgroup ▸ List.mem_cons_self
  refine ⟨head, rest, heq ▸ hgroup, heq, mem_opticrumInputs.mpr ⟨?_, heq ▸ hlock⟩⟩
  exact (List.mem_filter.mp hhead).1

/-- Opticrum inputs that share a lock are one group. -/
theorem groupInputs_of_shared {codeHash : Byte32} {tx : Transaction} {c : LiveCell}
    {rest : List LiveCell} (hinputs : opticrumInputs codeHash tx = c :: rest)
    (hshared : ∀ c' ∈ rest, c'.lock = c.lock) : tx.groupInputs c.lock = c :: rest := by
  have hmem : c ∈ opticrumInputs codeHash tx := hinputs ▸ List.mem_cons_self
  rw [groupInputs_eq_filter (mem_opticrumInputs.mp hmem).2, hinputs, List.filter_eq_self]
  intro c' hc'
  rcases List.mem_cons.mp hc' with rfl | hc'
  · simp
  · simp [hshared c' hc']

/-- When all cells of the contract are under one lock, one run of the script decides. -/
theorem acceptedBy_of_shared [ScriptHash] {codeHash : Byte32} {tx : Transaction} {c : LiveCell}
    {rest : List LiveCell} (hinputs : opticrumInputs codeHash tx = c :: rest)
    (hshared : ∀ c' ∈ rest, c'.lock = c.lock) :
    AcceptedBy codeHash tx ↔ accepts tx c.lock := by
  rw [AcceptedBy, hinputs]
  constructor
  · intro h
    exact h c List.mem_cons_self
  · intro h c' hc'
    rcases List.mem_cons.mp hc' with rfl | hc'
    · exact h
    · rwa [hshared c' hc']

/-- A cell that is the one Opticrum input is a group of its own. -/
theorem groupInputs_of_sole {codeHash : Byte32} {tx : Transaction} {c : LiveCell}
    (sole : opticrumInputs codeHash tx = [c]) : tx.groupInputs c.lock = [c] :=
  groupInputs_of_shared sole (List.forall_mem_nil _)

/-- The one cell that is consumed is under the contract's lock. -/
theorem isOpticrumLock_of_sole {codeHash : Byte32} {tx : Transaction} {c : LiveCell}
    (sole : opticrumInputs codeHash tx = [c]) : isOpticrumLock codeHash c.lock = true :=
  (mem_opticrumInputs.mp (sole ▸ List.mem_cons_self : c ∈ opticrumInputs codeHash tx)).2

/-- The contract accepts a transaction whose one group makes a transition. -/
theorem acceptedBy_of_transition [ScriptHash] {codeHash : Byte32} {tx : Transaction}
    {c : LiveCell} {rest : List LiveCell} (hinputs : opticrumInputs codeHash tx = c :: rest)
    (hshared : ∀ c' ∈ rest, c'.lock = c.lock) (hfits : c.occupied < 2 ^ 64)
    (hfits' : ∀ o, opticrumOutput? codeHash tx = some o → o.occupied < 2 ^ 64)
    (h : Transition tx c (opticrumOutput? codeHash tx)) : AcceptedBy codeHash tx := by
  have hmem : c ∈ opticrumInputs codeHash tx := hinputs ▸ List.mem_cons_self
  have hcode := codeHash_of_isOpticrumLock (mem_opticrumInputs.mp hmem).2
  rw [← hcode] at hfits' h
  rw [acceptedBy_of_shared hinputs hshared]
  exact accepts_of_transition (groupInputs_of_shared hinputs hshared) hfits hfits' h

/-- Every group of an accepted transaction makes a transition to the one first
Opticrum output. -/
theorem AcceptedBy.transition [ScriptHash] {codeHash : Byte32} {tx : Transaction}
    (h : AcceptedBy codeHash tx) {c : LiveCell} {rest : List LiveCell}
    (hlock : isOpticrumLock codeHash c.lock = true)
    (hgroup : tx.groupInputs c.lock = c :: rest) :
    Transition tx c (opticrumOutput? codeHash tx) := by
  have hin : c ∈ tx.groupInputs c.lock := hgroup ▸ List.mem_cons_self
  have hmem : c ∈ opticrumInputs codeHash tx :=
    mem_opticrumInputs.mpr ⟨(List.mem_filter.mp hin).1, hlock⟩
  have htransition := transition_of_accepts hgroup (h c hmem)
  rwa [codeHash_of_isOpticrumLock hlock] at htransition

/-! ## Who acts -/

section Parties

variable [ScriptHash]

/-- The seller of the Match cell `c` signs `tx` and its buyer does not: the
seller's side of `match_update`. -/
def bySeller (tx : Transaction) (c : Cell) : Bool :=
  match branchOf c with
  | .ok (.matchCell a _) => Signed tx a.sellerLockHash ∧ ¬ Signed tx a.orderArgs.buyerLockHash
  | _ => false

/-- The buyer of the Match cell `c` signs `tx` and its seller does not.  This is how the
verifier of updates tells the buyer's side from the seller's. -/
def byBuyer (tx : Transaction) (c : Cell) : Bool :=
  match branchOf c with
  | .ok (.matchCell a _) => ¬ Signed tx a.sellerLockHash ∧ Signed tx a.orderArgs.buyerLockHash
  | _ => false

variable {tx : Transaction} {c : Cell} {a : MatchArgs} {d : MatchData}

/-- The seller acts when he has signed and the buyer has not.  This is the test `match_update`
makes. -/
theorem bySeller_iff (h : IsMatch c a d) :
    bySeller tx c = true ↔ Signed tx a.sellerLockHash ∧ ¬ Signed tx a.orderArgs.buyerLockHash := by
  unfold bySeller
  rw [show branchOf c = _ from h]
  simp

/-- Without his signature the seller does not act. -/
theorem bySeller_of_unsigned (h : IsMatch c a d) (hunsigned : ¬ Signed tx a.sellerLockHash) :
    bySeller tx c = false := by
  rw [Bool.eq_false_iff, Ne, bySeller_iff h]
  exact fun hboth => hunsigned hboth.1

/-- The buyer acts when he has signed and the seller has not. -/
theorem byBuyer_iff (h : IsMatch c a d) :
    byBuyer tx c = true ↔ ¬ Signed tx a.sellerLockHash ∧ Signed tx a.orderArgs.buyerLockHash := by
  unfold byBuyer
  rw [show branchOf c = _ from h]
  simp

end Parties

/-! ## Steps -/

/-- The escrow in `c` goes through the accepted transaction `tx`.  A transaction is committed no
earlier than the cells it consumes and the headers it names.

No other Opticrum cell is consumed in it.  With several of them the script would compare each
with the same output, or not look at it at all. -/
inductive Step [ScriptHash] (codeHash : Byte32) :
    Option LiveCell → Transaction → Option LiveCell → Prop
  | replace {c c' : LiveCell} {tx : Transaction}
      (sole : opticrumInputs codeHash tx = [c]) (accepted : AcceptedBy codeHash tx)
      (successor : opticrumOutput? codeHash tx = some c'.toCell)
      (later : c.block ≤ c'.block)
      (headers : ∀ h ∈ tx.headerDeps, h.number.toNat ≤ c'.block) :
      Step codeHash (some c) tx (some c')
  | close {c : LiveCell} {tx : Transaction}
      (sole : opticrumInputs codeHash tx = [c]) (accepted : AcceptedBy codeHash tx)
      (closed : opticrumOutput? codeHash tx = none) :
      Step codeHash (some c) tx none

section Step

variable [ScriptHash] {codeHash : Byte32} {c c' : LiveCell} {tx : Transaction}

/-- A step makes a transition. -/
theorem Step.transition {s : Option LiveCell} (h : Step codeHash (some c) tx s) :
    Transition tx c (s.map LiveCell.toCell) := by
  cases h with
  | replace sole accepted successor =>
      have htransition :=
        accepted.transition (isOpticrumLock_of_sole sole) (groupInputs_of_sole sole)
      rwa [successor] at htransition
  | close sole accepted closed =>
      have htransition :=
        accepted.transition (isOpticrumLock_of_sole sole) (groupInputs_of_sole sole)
      rwa [closed] at htransition

/-- Every step of the lifecycle is a transaction the contract accepts. -/
theorem Step.accepted {s : Option LiveCell} (h : Step codeHash (some c) tx s) :
    AcceptedBy codeHash tx := by
  cases h with
  | replace _ accepted => exact accepted
  | close _ accepted => exact accepted

/-- A closed escrow takes no further step. -/
theorem not_step_none {s : Option LiveCell} : ¬ Step codeHash none tx s := by
  intro h
  cases h

/-- Blocks do not go back from a cell to its successor. -/
theorem Step.later (h : Step codeHash (some c) tx (some c')) : c.block ≤ c'.block := by
  cases h with
  | replace _ _ _ later => exact later

/-- A header dep is committed no later than the successor. -/
theorem Step.tip_le (h : Step codeHash (some c) tx (some c')) {tip : ℕ}
    (htip : tip? tx = some tip) : tip ≤ c'.block := by
  cases h with
  | replace _ _ _ _ headers =>
      obtain ⟨header, hheader, rfl⟩ := Option.map_eq_some_iff.mp htip
      exact headers header (List.mem_of_getElem? hheader)

end Step

end Opticrum
