import Opticrum.Calculator.Draft
import Opticrum.Contract.Lifecycle

/-!
# Completed drafts

A builder's instruction is the first of a transaction; others follow to pay the
fee and to sign.  `Completes` says what they may do to the draft: they append.
What the contract looks at is then decided by the draft alone.

## What must not be appended

Three things would change the verdict, and `Completes` excludes them: a cell of the contract
among the inputs, an output of the contract, and an input under a lock that must not sign.  The
last is what `avoid` lists; for most instructions it is empty, and for the two that update a
match it has the other party, since the contract does not accept an update that both sign.

The last section finds the channel.  The builder lists code deps, each of which is one cell, so
the raw and the resolved index of the channel agree whatever is appended behind it.
-/

namespace Opticrum

open Rust Ckb

/-! ## Completed drafts -/

section Completed

variable [ScriptHash]

/-- Later instructions turn the draft into `tx`: they append, nothing they append is under a
lock of the contract, and no appended input is under a lock to avoid.

The locks to avoid are those of parties who are not to sign.  An extraction that happens to be
paid for with a cell of the buyer would be signed by both. -/
structure Completes (codeHash : Byte32) (avoid : List Byte32) (draft tx : Transaction) : Prop where
  inputs : ∃ more, tx.inputs = draft.inputs ++ more ∧
    ∀ p ∈ more, isOpticrumLock codeHash p.lock = false ∧ calcScriptHash p.lock ∉ avoid
  outputs : ∃ more, tx.outputs = draft.outputs ++ more ∧
    ∀ o ∈ more, isOpticrumLock codeHash o.lock = false
  cellDeps : ∃ more, tx.cellDeps = draft.cellDeps ++ more
  headerDeps : ∃ more, tx.headerDeps = draft.headerDeps ++ more

/-- An address that signs for `lockHash`, and is not the contract.  Cells that are picked for it
sign, and change that is paid to it is no escrow. -/
structure ActsFor (codeHash : Byte32) (address : Address) (lockHash : Byte32) : Prop where
  hash : calcScriptHash address.script = lockHash
  ordinary : isOpticrumLock codeHash address.script = false

variable {codeHash : Byte32} {avoid : List Byte32} {draft tx : Transaction}

/-- What is appended consumes no cell of the contract. -/
theorem Completes.opticrumInputs_eq (h : Completes codeHash avoid draft tx) :
    opticrumInputs codeHash tx = opticrumInputs codeHash draft := by
  obtain ⟨more, hinputs, hmore⟩ := h.inputs
  have hnone : more.filter (fun p => isOpticrumLock codeHash p.lock) = [] := by
    rw [List.filter_eq_nil_iff]
    intro p hp
    simp [(hmore p hp).1]
  rw [opticrumInputs, hinputs, List.filter_append, hnone, List.append_nil, opticrumInputs]

/-- And makes none, so that the output the script looks at is the draft's. -/
theorem Completes.opticrumOutput?_eq (h : Completes codeHash avoid draft tx) :
    opticrumOutput? codeHash tx = opticrumOutput? codeHash draft := by
  obtain ⟨more, houtputs, hmore⟩ := h.outputs
  have hnone : more.find? (fun o => isOpticrumLock codeHash o.lock) = none := by
    rw [List.find?_eq_none]
    intro o ho
    simp [hmore o ho]
  rw [opticrumOutput?, houtputs, List.find?_append, hnone, Option.or_none, opticrumOutput?]

/-- A header of the draft is listed. -/
theorem Completes.hasHeader (h : Completes codeHash avoid draft tx) {header : Header}
    (hmem : header ∈ draft.headerDeps) : tx.hasHeader header = true := by
  obtain ⟨more, hheaders⟩ := h.headerDeps
  exact List.any_eq_true.mpr ⟨header, hheaders ▸ List.mem_append_left _ hmem, by simp⟩

/-- The tip is the draft's first header, as further ones come behind it. -/
theorem Completes.tip?_eq (h : Completes codeHash avoid draft tx) {header : Header}
    (hfirst : draft.headerDeps[0]? = some header) : tip? tx = some header.number.toNat := by
  obtain ⟨more, hheaders⟩ := h.headerDeps
  obtain ⟨hlt, -⟩ := List.getElem?_eq_some_iff.mp hfirst
  rw [tip?, hheaders, List.getElem?_append_left hlt, hfirst]
  rfl

/-- Who signs for the draft signs for the transaction. -/
theorem Completes.signed (h : Completes codeHash avoid draft tx) {p : LiveCell} {lockHash : Byte32}
    (hp : p ∈ draft.inputs) (hhash : calcScriptHash p.lock = lockHash) : Signed tx lockHash := by
  obtain ⟨more, hinputs, -⟩ := h.inputs
  exact ⟨p, hinputs ▸ List.mem_append_left _ hp, hhash⟩

/-- Who is to be avoided, and does not sign for the draft, does not sign. -/
theorem Completes.not_signed (h : Completes codeHash avoid draft tx) {lockHash : Byte32}
    (havoid : lockHash ∈ avoid) (hdraft : ∀ p ∈ draft.inputs, calcScriptHash p.lock ≠ lockHash) :
    ¬ Signed tx lockHash := by
  obtain ⟨more, hinputs, hmore⟩ := h.inputs
  rintro ⟨p, hp, hhash⟩
  rw [hinputs, List.mem_append] at hp
  rcases hp with hp | hp
  · exact hdraft p hp hhash
  · exact (hmore p hp).2 (hhash ▸ havoid)

/-- A channel that is a dep of the draft is listed. -/
theorem Completes.channelListed (h : Completes codeHash avoid draft tx) {channel : LiveCell}
    {o : OutPoint} (hmem : .code channel ∈ draft.cellDeps) (hpoint : channel.outPoint = o.packed) :
    ChannelListed tx o := by
  obtain ⟨more, hdeps⟩ := h.cellDeps
  refine ⟨⟨channel.outPoint, .code⟩, ?_, OutPoint.isAt_iff.mpr hpoint⟩
  rw [Transaction.rawCellDeps, hdeps]
  exact List.mem_map_of_mem (f := ResolvedDep.dep) (List.mem_append_left _ hmem)

/-- A completed draft that spends one cell of the contract is accepted when it makes a
transition of that cell into what the draft has for it. -/
theorem Completes.accepted (h : Completes codeHash avoid draft tx) {c : LiveCell}
    (hsole : opticrumInputs codeHash tx = [c]) (hfits : c.occupied < 2 ^ 64)
    (hfits' : ∀ o, opticrumOutput? codeHash draft = some o → o.occupied < 2 ^ 64)
    (htransition : Transition tx c (opticrumOutput? codeHash draft)) : AcceptedBy codeHash tx := by
  rw [← h.opticrumOutput?_eq] at hfits' htransition
  exact acceptedBy_of_transition hsole (List.forall_mem_nil _) hfits hfits' htransition

omit [ScriptHash] in
/-- The cells of a party are no Opticrum inputs. -/
theorem PartyCells.filter_eq_nil {address : Address} {party : List LiveCell}
    (hparty : PartyCells address party)
    (hordinary : isOpticrumLock codeHash address.script = false) :
    party.filter (fun p => isOpticrumLock codeHash p.lock) = [] := by
  rw [List.filter_eq_nil_iff]
  intro p hp
  simp [hparty.lock p hp, hordinary]

/-- A draft that spends a cell of the contract before the cells of a party completes to a
transaction that spends no other cell of the contract. -/
theorem Completes.sole_of_cons {address : Address} {party : List LiveCell}
    {c : LiveCell} {outputs : List Cell} {deps : List ResolvedDep} {headers : List Header}
    (h : Completes codeHash avoid ⟨c :: party, outputs, deps, headers⟩ tx)
    (hparty : PartyCells address party)
    (hordinary : isOpticrumLock codeHash address.script = false)
    (hlock : isOpticrumLock codeHash c.lock = true) : opticrumInputs codeHash tx = [c] := by
  refine h.opticrumInputs_eq.trans ?_
  simp [opticrumInputs, hlock, hparty.filter_eq_nil hordinary]

/-- So does one that spends it behind them, as an extraction does. -/
theorem Completes.sole_of_append {address : Address} {party : List LiveCell}
    {c : LiveCell} {outputs : List Cell} {deps : List ResolvedDep} {headers : List Header}
    (h : Completes codeHash avoid ⟨party ++ [c], outputs, deps, headers⟩ tx)
    (hparty : PartyCells address party)
    (hordinary : isOpticrumLock codeHash address.script = false)
    (hlock : isOpticrumLock codeHash c.lock = true) : opticrumInputs codeHash tx = [c] := by
  refine h.opticrumInputs_eq.trans ?_
  simp [opticrumInputs, hlock, hparty.filter_eq_nil hordinary]

/-- The cells of a party sign for it. -/
theorem PartyCells.exists_hash {address : Address} {party : List LiveCell} {lockHash : Byte32}
    (hparty : PartyCells address party) (hacts : ActsFor codeHash address lockHash) :
    ∃ p ∈ party, calcScriptHash p.lock = lockHash := by
  obtain ⟨p, hp⟩ := List.exists_mem_of_ne_nil party hparty.nonempty
  exact ⟨p, hp, by rw [hparty.lock p hp, hacts.hash]⟩

end Completed

/-! ## The channel among code deps -/

section Codes

variable {rpc : RPC} {channel : LiveCell} {o : OutPoint}

/-- Among code deps that resolve to live cells, the index of the first entry that
names the channel is the index of the channel. -/
theorem findIdx?_codes {codes : List LiveCell} (more : List ResolvedDep)
    (hlive : ∀ k ∈ codes, rpc.Live k) (hchannel : rpc.liveCell o.packed = some channel)
    (hmem : channel ∈ codes) :
    ∃ i, ((codes.map ResolvedDep.code ++ more).map ResolvedDep.dep).findIdx?
        (fun dep => o.isAt dep.outPoint) = some i ∧
      ((codes.map ResolvedDep.code ++ more).flatMap ResolvedDep.cells)[i]? = some channel := by
  induction codes with
  | nil => simp at hmem
  | cons k ks ih =>
      by_cases hk : o.isAt k.outPoint = true
      · have hkLive := hlive k List.mem_cons_self
        rw [RPC.Live, OutPoint.isAt_iff.mp hk, hchannel] at hkLive
        obtain rfl := Option.some.inj hkLive
        refine ⟨0, ?_, rfl⟩
        simp [List.findIdx?_cons, ResolvedDep.code, hk]
      · have hne : channel ≠ k := by
          rintro rfl
          exact hk (OutPoint.isAt_iff.mpr (rpc.liveCell_outPoint hchannel))
        obtain ⟨i, hi, hcell⟩ := ih (fun k' hk' => hlive k' (List.mem_cons_of_mem _ hk'))
          ((List.mem_cons.mp hmem).resolve_left hne)
        refine ⟨i + 1, ?_, ?_⟩
        · rw [List.map_cons, List.cons_append, List.map_cons, List.findIdx?_cons, hi]
          simp [ResolvedDep.code, hk]
        · simpa [ResolvedDep.code] using hcell

/-- The deps of a builder that names the contract and the channel are such codes. -/
theorem Adds.exists_codes {contract : LiveCell} {deps : List ResolvedDep}
    (h : Adds [.code contract] (.code channel) deps) (hcontract : rpc.Live contract)
    (hchannel : rpc.liveCell o.packed = some channel) :
    ∃ codes : List LiveCell, deps = codes.map ResolvedDep.code ∧ (∀ k ∈ codes, rpc.Live k) ∧
      channel ∈ codes := by
  have hlive : rpc.Live channel := by
    rw [RPC.Live, rpc.liveCell_outPoint hchannel]
    exact hchannel
  rcases h with rfl | ⟨hmem, rfl⟩
  · refine ⟨[contract, channel], rfl, ?_, by simp⟩
    intro k hk
    rcases List.mem_pair.mp hk with rfl | rfl
    · exact hcontract
    · exact hlive
  · have hcells := congrArg ResolvedDep.cells (List.mem_singleton.mp hmem)
    obtain rfl : channel = contract := List.singleton_inj.mp hcells
    exact ⟨[channel], rfl, fun k hk => List.mem_singleton.mp hk ▸ hlive, by simp⟩

/-- The contract finds the channel of a completed draft where the deps put it. -/
theorem Completes.exists_findIdx? [ScriptHash] {codeHash : Byte32} {avoid : List Byte32}
    {draft tx : Transaction} (h : Completes codeHash avoid draft tx) {contract : LiveCell}
    (hdeps : Adds [.code contract] (.code channel) draft.cellDeps) (hcontract : rpc.Live contract)
    (hchannel : rpc.liveCell o.packed = some channel) :
    ∃ i, tx.rawCellDeps.findIdx? (fun dep => o.isAt dep.outPoint) = some i ∧
      tx.resolvedCellDeps[i]? = some channel := by
  obtain ⟨more, hmore⟩ := h.cellDeps
  obtain ⟨codes, hcodes, hlive, hmem⟩ := hdeps.exists_codes hcontract hchannel
  rw [Transaction.rawCellDeps, Transaction.resolvedCellDeps, hmore, hcodes]
  exact findIdx?_codes more hlive hchannel hmem

end Codes

end Opticrum
