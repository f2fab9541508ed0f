import Opticrum.Contract.Cells

/-!
# What an accepted run of the script has checked

`Transition tx c o` lists, route by route, what the script demands of a
transaction `tx` whose script group starts with the cell `c` and whose first
Opticrum output is `o`.  It speaks about cells, block numbers and natural
numbers; `accepts_iff` says that it is exactly what the script computes.  Every
result about accepted transactions is a case analysis on `Transition`, and no
proof outside this module unfolds a verifier.

## Rent

`rentAt c d tip` is the rent of a Match cell at a tip, over the natural numbers.
The script can compute it only when the headers it reads are there and the
product fits in 64 bits; `RentDue` collects these conditions.

## Layout

The sections go through the code from the bottom to the top.  Each function has one
`…_eq_ok_iff`, and each is proved from those of the functions it calls:

* the helpers: `hasInputLock_eq`, `baseBlock_eq_ok_iff`, `liquidityRent_eq_ok_iff`,
  `isExhausted_eq_ok_iff`;
* the routing table, one lemma for each of the four patterns that name a verifier;
* the root verifier, `rootVerify_eq_ok_iff`, over the states of the two cells;
* the branch verifiers;
* the script, `transition_of_accepts` and `accepts_of_transition`.

All of it is about a script group that is not empty.  What is known of its other cells is
nothing: `rest` stays a variable throughout, because the code never looks at it.
-/

namespace Opticrum

open Rust Ckb

/-! ## The transaction as the script sees it -/

/-- A lock script of the contract deployed under `codeHash`.  Any args will do; a cell under
such a lock need not be an order or a match. -/
def isOpticrumLock (codeHash : Byte32) (lock : Script) : Bool :=
  lock.codeHash = codeHash ∧ lock.hashType = .type

/-- The first Opticrum output.  It is the only one the script looks at, in whatever group it
runs. -/
def opticrumOutput? (codeHash : Byte32) (tx : Transaction) : Option Cell :=
  tx.outputs.find? fun o => isOpticrumLock codeHash o.lock

/-- The block number of `HeaderDep[0]`.  Whoever builds the transaction chooses it among the
blocks of the chain; nothing says that it is the latest. -/
def tip? (tx : Transaction) : Option ℕ :=
  tx.headerDeps[0]?.map fun h => h.number.toNat

/-- `lockHash` is the lock hash of some input.  The lock of that input has then accepted the
transaction, which is what a signature comes to here. -/
def Signed [ScriptHash] (tx : Transaction) (lockHash : Byte32) : Prop :=
  ∃ c ∈ tx.inputs, calcScriptHash c.lock = lockHash

instance [ScriptHash] (tx : Transaction) (lockHash : Byte32) : Decidable (Signed tx lockHash) :=
  inferInstanceAs (Decidable (∃ c ∈ tx.inputs, _))

/-- Some raw cell dep names the channel.  That it is live is the rule of the chain, and the
script relies on it. -/
def ChannelListed (tx : Transaction) (channelOutpoint : OutPoint) : Prop :=
  ∃ dep ∈ tx.rawCellDeps, channelOutpoint.isAt dep.outPoint

instance (tx : Transaction) (channelOutpoint : OutPoint) :
    Decidable (ChannelListed tx channelOutpoint) :=
  inferInstanceAs (Decidable (∃ dep ∈ tx.rawCellDeps, _))

/-! ## Rent and value -/

/-- The block the rent of a Match cell accrues from.  A stored zero reads as no extraction, so
that the block of the cell itself counts. -/
def rentBase (c : LiveCell) (d : MatchData) : ℕ :=
  if d.lastExtractionBlock = 0 then c.block else d.lastExtractionBlock.toNat

/-- The rent of a Match cell at a tip.  The difference is truncated: at a tip before the base no
rent is due. -/
def rentAt (c : LiveCell) (d : MatchData) (tip : ℕ) : ℕ :=
  d.shannonsPerBlock.toNat * (tip - rentBase c d)

/-- The remaining value of a cell: its tokens when it has a type script, its
unoccupied capacity otherwise. -/
def valueOf (c : Cell) : ℕ :=
  match xudtOf c with
  | some (amount, _) => amount.toNat
  | none => c.unoccupied

/-- The script can compute the rent of `c` at the tip: there is a tip, the header of the match's
block is at hand if the base is to be taken from it, and the product fits in 64 bits. -/
structure RentDue (tx : Transaction) (c : LiveCell) (d : MatchData) (tip : ℕ) : Prop where
  isTip : tip? tx = some tip
  creation : d.lastExtractionBlock = 0 → tx.hasHeader c.header
  fits : rentAt c d tip < 2 ^ 64

/-- What the seller takes out of `c` when it becomes `o`.  It is compared with the rent, in
tokens or in capacity, and is a truncated difference in both cases. -/
def extracted (c o : Cell) (newData : MatchData) : ℕ :=
  match xudtOf c with
  | some (amount, _) => amount.toNat - newData.xudtAmount.toNat
  | none => c.unoccupied - o.unoccupied

section Value

variable {c o : Cell} {a : MatchArgs} {d d' : MatchData}

/-- A match without a type script is worth its pool. -/
theorem valueOf_of_type_none (h : IsMatch c a d) (htype : c.type_ = none) :
    valueOf c = c.unoccupied := by
  rw [valueOf, h.xudtOf_eq, htype]
  rfl

/-- A match with a type script is worth its tokens, and what CKB it holds does not count. -/
theorem valueOf_of_type_some {s : Script} (h : IsMatch c a d) (htype : c.type_ = some s) :
    valueOf c = d.xudtAmount.toNat := by
  rw [valueOf, h.xudtOf_eq, htype]
  rfl

/-- What is taken from a match without a type script is the difference of the pools. -/
theorem extracted_of_type_none (h : IsMatch c a d) (htype : c.type_ = none) :
    extracted c o d' = c.unoccupied - o.unoccupied := by
  rw [extracted, h.xudtOf_eq, htype]
  rfl

/-- What is taken from one with a type script is the difference of the amounts in the data. -/
theorem extracted_of_type_some {s : Script} (h : IsMatch c a d) (htype : c.type_ = some s) :
    extracted c o d' = d.xudtAmount.toNat - d'.xudtAmount.toNat := by
  rw [extracted, h.xudtOf_eq, htype]
  rfl

/-- Equal tokens, equal type scripts. -/
theorem type_eq_of_xudtOf_eq {a' : MatchArgs} (h : IsMatch c a d) (h' : IsMatch o a' d')
    (hxudt : xudtOf c = xudtOf o) : c.type_ = o.type_ := by
  rw [h.xudtOf_eq, h'.xudtOf_eq] at hxudt
  cases hc : c.type_ <;> cases ho : o.type_ <;> simp_all

end Value

/-- Before the first extraction rent runs from the block the cell is from. -/
theorem rentBase_of_eq_zero {c : LiveCell} {d : MatchData} (h : d.lastExtractionBlock = 0) :
    rentBase c d = c.block := if_pos h

/-- Rent never accrues from before the stored clock. -/
theorem le_rentBase_of_clock {c : LiveCell} {d : MatchData} {tip : ℕ}
    (h : d.lastExtractionBlock.toNat = tip) : tip ≤ rentBase c d := by
  unfold rentBase
  split
  · next hzero =>
    rw [hzero] at h
    exact h ▸ Nat.zero_le _
  · exact h.ge

/-- A successor that keeps the stored clock does not accrue from earlier. -/
theorem rentBase_le_of_clock_eq {c c' : LiveCell} {d d' : MatchData}
    (hclock : d'.lastExtractionBlock = d.lastExtractionBlock) (hlater : c.block ≤ c'.block) :
    rentBase c d ≤ rentBase c' d' := by
  unfold rentBase
  rw [hclock]
  split
  · exact hlater
  · exact le_rfl

/-! ## The transitions -/

/-- What the script demands of a transaction, by route.

Each constructor is one of the verifiers, with all of its checks, for the inspected cell `c` and
the first Opticrum output.  That an accepted run is exactly one of these transitions is
`accepts_iff`; the results of the development argue about transitions, and not about the code
any more. -/
inductive Transition [ScriptHash] (tx : Transaction) (c : LiveCell) : Option Cell → Prop
  | orderCancel {a : OrderArgs} {d : OrderData} (old : IsOrder c.toCell a d)
      (signed : Signed tx a.buyerLockHash) : Transition tx c none
  | orderMatch {a : OrderArgs} {d : OrderData} {o : Cell} {ma : MatchArgs} {md : MatchData}
      {i : ℕ} {channel : LiveCell}
      (old : IsOrder c.toCell a d) (new : IsMatch o ma md)
      (args : a = ma.orderArgs) (xudt : xudtOf c.toCell = xudtOf o)
      (listed : tx.rawCellDeps.findIdx? (fun dep => ma.channelOutpoint.isAt dep.outPoint) = some i)
      (inspected : tx.resolvedCellDeps[i]? = some channel)
      (meets : channelMeets channel.toCell
        (if 0 < d.xudtAmount then none else some d.channelCapacity)
        (if 0 < d.xudtAmount then some d.xudtAmount else none)
        ((xudtOf c.toCell).map fun x => some x.2) = .ok true)
      (signed : Signed tx ma.sellerLockHash)
      (rate : d.shannonsPerBlock = md.shannonsPerBlock)
      (clock : md.lastExtractionBlock = 0)
      (pool : c.unoccupied = o.unoccupied)
      (amount : d.xudtAmount = md.xudtAmount)
      (orderHeader : tx.hasHeader c.header) (channelHeader : tx.hasHeader channel.header)
      (younger : c.block < channel.block) : Transition tx c (some o)
  | sellerExtract {a : MatchArgs} {d d' : MatchData} {o : Cell} {tip : ℕ}
      (old : IsMatch c.toCell a d) (new : IsMatch o a d')
      (xudt : xudtOf c.toCell = xudtOf o)
      (rate : d.shannonsPerBlock = d'.shannonsPerBlock)
      (signed : Signed tx a.sellerLockHash)
      (unsigned : ¬ Signed tx a.orderArgs.buyerLockHash)
      (listed : ChannelListed tx a.channelOutpoint)
      (due : RentDue tx c d tip) (alive : rentAt c d tip < valueOf c.toCell)
      (exact : extracted c.toCell o d' = rentAt c d tip)
      (clock : d'.lastExtractionBlock.toNat = tip) : Transition tx c (some o)
  | buyerUpdate {a : MatchArgs} {d d' : MatchData} {o : Cell}
      (old : IsMatch c.toCell a d) (new : IsMatch o a d')
      (xudt : xudtOf c.toCell = xudtOf o)
      (rate : d.shannonsPerBlock = d'.shannonsPerBlock)
      (unsigned : ¬ Signed tx a.sellerLockHash)
      (signed : Signed tx a.orderArgs.buyerLockHash)
      (clock : d'.lastExtractionBlock = d.lastExtractionBlock) : Transition tx c (some o)
  | matchDestroy {a : MatchArgs} {d : MatchData} {tip : ℕ} (old : IsMatch c.toCell a d)
      (signed : Signed tx a.sellerLockHash) (due : RentDue tx c d tip)
      (exhausted : valueOf c.toCell ≤ rentAt c d tip) : Transition tx c none

/-! ## The helpers -/

section Helpers

variable {env : Env} {c : LiveCell} {rest : List LiveCell}

/-- The loop over the inputs never fails, and finds the lock hash when some input has it. -/
theorem hasInputLock_eq [ScriptHash] (lockHash : Byte32) :
    hasInputLock env lockHash = .ok (decide (Signed env.tx lockHash)) := by
  unfold hasInputLock
  congr 1
  rw [Bool.eq_iff_iff, List.any_eq_true, decide_eq_true_eq]
  simp [Signed, Env.queryLockHashes, Env.queryLocks, Env.cells, Env.liveCells]

/-- The check for a signature passes exactly when it is there. -/
theorem requireInputLock_eq_ok_iff [ScriptHash] {lockHash : Byte32} {e : OpticrumError}
    {u : PUnit} :
    requireInputLock env lockHash e = .ok u ↔ Signed env.tx lockHash := by
  rw [requireInputLock, hasInputLock_eq, Outcome.ok_bind, require_eq_ok_iff, decide_eq_true_eq]

/-- The loop over the raw cell deps never fails either.  The cell behind the entry is not
loaded, so that a dep group at the out point passes. -/
theorem checkChannelExistence_eq (channelOutpoint : OutPoint) :
    checkChannelExistence env channelOutpoint =
      .ok (decide (ChannelListed env.tx channelOutpoint)) := by
  simp only [checkChannelExistence, Env.loadTransactionCellDeps, sysCall, Outcome.mapErr_ok,
    Outcome.ok_bind]
  congr 1
  rw [Bool.eq_iff_iff, List.any_eq_true, decide_eq_true_eq, ChannelListed]

/-- What the script takes for the tip is the number of the first header dep, whichever block the
transaction lists there. -/
theorem loadHeaderBlockNumber_eq_ok_iff {v : U64} :
    loadHeaderBlockNumber env 0 = .ok v ↔ tip? env.tx = some v.toNat := by
  simp only [loadHeaderBlockNumber, Outcome.bind_eq_ok_iff, sysCallOr_eq_ok_iff,
    Env.loadHeader_headerDep_eq_ok_iff, Except.ok.injEq, tip?, Option.map_eq_some_iff,
    BitVec.toNat_inj]

/-- The block the script computes rent from. -/
theorem baseBlock_eq_ok_iff (hgroup : env.tx.groupInputs env.script = c :: rest)
    {d : MatchData} {v : U64} :
    OpticrumState.baseBlock env d = .ok v ↔
      (d.lastExtractionBlock = 0 → env.tx.hasHeader c.header) ∧ v.toNat = rentBase c d := by
  unfold OpticrumState.baseBlock rentBase
  split
  · next h =>
    simp only [Outcome.bind_eq_ok_iff, sysCallOr_eq_ok_iff,
      Env.loadHeader_groupInput_eq_ok_iff hgroup, Except.ok.injEq, h, true_implies]
    constructor
    · rintro ⟨_, ⟨hmem, rfl⟩, rfl⟩
      exact ⟨hmem, rfl⟩
    · rintro ⟨hmem, hv⟩
      exact ⟨c.header, ⟨hmem, rfl⟩, BitVec.eq_of_toNat_eq hv.symm⟩
  · next h =>
    simp only [Except.ok.injEq, h, false_implies, true_and, ← BitVec.toNat_inj, eq_comm]

/-- **Rent.**  The script computes the rent of the inspected cell exactly when it
is due, and then computes it exactly. -/
theorem liquidityRent_eq_ok_iff (hgroup : env.tx.groupInputs env.script = c :: rest)
    {st : OpticrumState} {a : MatchArgs} {d : MatchData} (hst : st.branch = .matchCell a d)
    {r : U64} :
    st.liquidityRent env = .ok r ↔
      ∃ tip, RentDue env.tx c d tip ∧ r.toNat = rentAt c d tip := by
  simp only [OpticrumState.liquidityRent, hst, Outcome.bind_eq_ok_iff,
    Outcome.mapErr_eq_ok_iff, baseBlock_eq_ok_iff hgroup, loadHeaderBlockNumber_eq_ok_iff,
    checkedMul_eq_ok_iff, toNat_saturatingSub]
  constructor
  · rintro ⟨base, ⟨hcreation, hbase⟩, tip, htip, hprod⟩
    rw [hbase] at hprod
    exact ⟨tip.toNat, ⟨htip, hcreation, by rw [rentAt, hprod]; exact r.isLt⟩, hprod.symm⟩
  · rintro ⟨tip, ⟨htip, hcreation, hfits⟩, hr⟩
    obtain ⟨header, hheader, htipEq⟩ := Option.map_eq_some_iff.mp htip
    have hbaseLt : rentBase c d < 2 ^ 64 := by
      unfold rentBase
      split
      · exact c.header.number.isLt
      · exact d.lastExtractionBlock.isLt
    refine ⟨BitVec.ofNat 64 (rentBase c d), ⟨hcreation, ?_⟩, header.number, ?_, ?_⟩
    · rw [toNat_ofNat_of_lt hbaseLt]
    · rw [htip, htipEq]
    · rw [toNat_ofNat_of_lt hbaseLt, htipEq, hr, rentAt]

/-- **Exhaustion** of the inspected cell. -/
theorem isExhausted_eq_ok_iff (hgroup : env.tx.groupInputs env.script = c :: rest)
    {st : OpticrumState} {a : MatchArgs} {d : MatchData} (hst : StateOf c.toCell st)
    (hbranch : st.branch = .matchCell a d) {b : Bool} :
    st.isExhausted env = .ok b ↔
      ∃ tip, RentDue env.tx c d tip ∧ b = decide (valueOf c.toCell ≤ rentAt c d tip) := by
  have hcompare : ∀ r : U64, (match xudtOf c.toCell with
      | some (xudtAmount, _) => (.ok (xudtAmount ≤ r.setWidth 128 : Bool) : Result Bool)
      | none => .ok (st.unoccupiedCapacity ≤ r : Bool)) =
        .ok (decide (valueOf c.toCell ≤ r.toNat)) := by
    intro r
    unfold valueOf
    cases xudtOf c.toCell with
    | none => simp only [BitVec.le_def, hst.unoccupied]
    | some x => simp only [BitVec.le_def, toNat_setWidth_of_le (show 64 ≤ 128 by omega)]
  unfold OpticrumState.isExhausted
  rw [hst.xudt, Outcome.bind_eq_ok_iff]
  constructor
  · rintro ⟨r, hr, hb⟩
    obtain ⟨tip, hdue, hr⟩ := (liquidityRent_eq_ok_iff hgroup hbranch).mp hr
    have hb' := (hcompare r).symm.trans hb
    exact ⟨tip, hdue, by rw [← hr]; exact (Except.ok.inj hb').symm⟩
  · rintro ⟨tip, hdue, rfl⟩
    have hr : (BitVec.ofNat 64 (rentAt c d tip)).toNat = rentAt c d tip := by
      rw [toNat_ofNat_of_lt hdue.fits]
    refine ⟨_, (liquidityRent_eq_ok_iff hgroup hbranch).mpr ⟨tip, hdue, hr⟩, ?_⟩
    exact (hcompare _).trans (by rw [hr])

/-- The cells of a script group carry the script as their lock. -/
theorem lock_of_groupInputs {tx : Transaction} {script : Script}
    (hgroup : tx.groupInputs script = c :: rest) : c.lock = script := by
  have hmem : c ∈ tx.groupInputs script := hgroup ▸ List.mem_cons_self
  simpa [Transaction.groupInputs] using (List.mem_filter.mp hmem).2

/-- The first Opticrum output sits at the index the search returns. -/
theorem findOpticrumScript_output (hgroup : env.tx.groupInputs env.script = c :: rest) :
    match findOpticrumScript env .output with
    | none => opticrumOutput? env.script.codeHash env.tx = none
    | some i => ∃ o, env.tx.outputs[i]? = some o ∧
        opticrumOutput? env.script.codeHash env.tx = some o := by
  have hlock := lock_of_groupInputs hgroup
  have hload : env.loadCellLock 0 .groupInput = .ok env.script := by
    have hcell : (env.cells .groupInput)[0]? = some c.toCell := by
      simp [Env.cells, Env.liveCells, hgroup]
    simp only [Env.loadCellLock, Env.loadCell_of_getElem? hcell, Outcome.ok_bind, hlock]
  have hfind : findOpticrumScript env .output =
      env.tx.outputs.findIdx? fun o => isOpticrumLock env.script.codeHash o.lock := by
    simp only [findOpticrumScript, hload, Env.queryLocks, Env.cells, List.findIdx?_map]
    rfl
  rw [hfind, opticrumOutput?, List.find?_eq_bind_findIdx?_getElem?]
  cases hidx : env.tx.outputs.findIdx? fun o => isOpticrumLock env.script.codeHash o.lock with
  | none => rfl
  | some i =>
      obtain ⟨hlt, -⟩ := List.findIdx?_eq_some_iff_getElem.mp hidx
      exact ⟨env.tx.outputs[i], List.getElem?_eq_getElem hlt, List.getElem?_eq_getElem hlt⟩

end Helpers

/-! ## The routing table -/

section Compare

variable {old : OpticrumState} {new : Option OpticrumState}

/-- An order without an Opticrum output is cancelled. -/
theorem compare_eq_orderCancel_iff :
    old.compare new = .orderCancel ↔ (∃ a d, old.branch = .orderCell a d) ∧ new = none := by
  unfold OpticrumState.compare
  grind

/-- A match without one is destroyed. -/
theorem compare_eq_matchDestroy_iff :
    old.compare new = .matchDestroy ↔ (∃ a d, old.branch = .matchCell a d) ∧ new = none := by
  unfold OpticrumState.compare
  grind

/-- An order that becomes a match is matched when the match carries its args and its tokens,
amount and script. -/
theorem compare_eq_orderMatch_iff :
    old.compare new = .orderMatch ↔
      ∃ a d st ma md, old.branch = .orderCell a d ∧ new = some st ∧
        st.branch = .matchCell ma md ∧ a = ma.orderArgs ∧ old.xudt = st.xudt := by
  unfold OpticrumState.compare
  cases old.branch with
  | orderCell a d =>
      cases new with
      | none => simp
      | some st => cases hst : st.branch <;> simp [hst]
  | matchCell a d => grind
  | unknown => simp

/-- A match that stays a match is updated, provided that its tokens are the same, the amount
included.  The args are left to the verifier. -/
theorem compare_eq_matchUpdate_iff :
    old.compare new = .matchUpdate ↔
      ∃ a d st d', old.branch = .matchCell a d ∧ new = some st ∧
        st.branch = .matchCell a d' ∧ old.xudt = st.xudt := by
  unfold OpticrumState.compare
  cases old.branch with
  | orderCell a d => grind
  | matchCell a d =>
      cases new with
      | none => simp
      | some st => cases hst : st.branch <;> simp [hst, eq_comm]
  | unknown => simp

end Compare

/-! ## The root verifier -/

/-- The pattern that routes to a verifier. -/
def VerifierName.pattern : VerifierName → OpticrumPattern
  | .orderCancel => .orderCancel
  | .orderMatch => .orderMatch
  | .matchUpdate => .matchUpdate
  | .matchDestroy => .matchDestroy

/-- The root verifier names the one that belongs to the pattern, and no two patterns name the
same. -/
theorem route_eq_ok_iff {old : OpticrumState} {new : Option OpticrumState}
    {name : VerifierName} : route old new = .ok name ↔ old.compare new = name.pattern := by
  unfold route
  cases old.compare new <;> cases name <;> simp [VerifierName.pattern]

/-- `st?` is the new state the root builds: that of the first Opticrum output. -/
def NewStateOf (codeHash : Byte32) (tx : Transaction) (st? : Option OpticrumState) : Prop :=
  match opticrumOutput? codeHash tx with
  | none => st? = none
  | some o => ∃ st, st? = some st ∧ StateOf o st

/-- A state that says order is that of an order. -/
theorem StateOf.isOrder {c : Cell} {st : OpticrumState} (h : StateOf c st) {a : OrderArgs}
    {d : OrderData} (hb : st.branch = .orderCell a d) : IsOrder c a d :=
  h.branch.trans (congrArg Except.ok hb)

/-- A state that says match is that of a match. -/
theorem StateOf.isMatch {c : Cell} {st : OpticrumState} (h : StateOf c st) {a : MatchArgs}
    {d : MatchData} (hb : st.branch = .matchCell a d) : IsMatch c a d :=
  h.branch.trans (congrArg Except.ok hb)

/-- No new state, no Opticrum output. -/
theorem NewStateOf.eq_none {codeHash : Byte32} {tx : Transaction}
    (h : NewStateOf codeHash tx none) : opticrumOutput? codeHash tx = none := by
  unfold NewStateOf at h
  cases hout : opticrumOutput? codeHash tx with
  | none => rfl
  | some o =>
      rw [hout] at h
      simp at h

/-- A new state is that of the first Opticrum output. -/
theorem NewStateOf.exists_eq_some {codeHash : Byte32} {tx : Transaction} {st : OpticrumState}
    (h : NewStateOf codeHash tx (some st)) :
    ∃ o, opticrumOutput? codeHash tx = some o ∧ StateOf o st := by
  unfold NewStateOf at h
  cases hout : opticrumOutput? codeHash tx with
  | none =>
      rw [hout] at h
      simp at h
  | some o =>
      rw [hout] at h
      obtain ⟨st', hst', ho⟩ := h
      exact ⟨o, rfl, Option.some.inj hst' ▸ ho⟩

section Root

variable {env : Env} {c : LiveCell} {rest : List LiveCell}

/-- The old state is that of the first cell of the group.  The others are not loaded. -/
theorem loadOldState_eq_ok_iff (hgroup : env.tx.groupInputs env.script = c :: rest)
    {st : OpticrumState} : loadOldState env = .ok st ↔ StateOf c.toCell st := by
  have hcell : (env.cells .groupInput)[0]? = some c.toCell := by
    simp [Env.cells, Env.liveCells, hgroup]
  have hlock := lock_of_groupInputs hgroup
  simp only [loadOldState, Env.loadCellData, Env.loadCell_of_getElem? hcell, Outcome.ok_bind,
    sysCall, Outcome.mapErr_ok, Outcome.bind_eq_ok_iff, parseXudt_eq_ok_iff hcell,
    getUnoccupiedCapacity_eq_ok_iff hcell, Env.scriptArgs, ← hlock]
  constructor
  · rintro ⟨branch, hbranch, v, ⟨hfits, hv⟩, x, rfl, hst⟩
    obtain rfl := Except.ok.inj hst
    exact ⟨hbranch, hfits, hv, rfl⟩
  · intro hst
    exact ⟨_, hst.branch, _, ⟨hst.fits, hst.unoccupied⟩, _, hst.xudt, rfl⟩

/-- The state of an output is loaded from its position. -/
theorem loadNewState_eq_ok_iff {index : ℕ} {o : Cell} (ho : env.tx.outputs[index]? = some o)
    {st : OpticrumState} : loadNewState env index = .ok st ↔ StateOf o st := by
  have hcell : (env.cells .output)[index]? = some o := ho
  simp only [loadNewState, Env.loadCellLock, Env.loadCellData, Env.loadCell_of_getElem? hcell,
    Outcome.ok_bind, sysCall, Outcome.mapErr_ok, Outcome.bind_eq_ok_iff,
    parseXudt_eq_ok_iff hcell, getUnoccupiedCapacity_eq_ok_iff hcell]
  constructor
  · rintro ⟨branch, hbranch, v, ⟨hfits, hv⟩, x, rfl, hst⟩
    obtain rfl := Except.ok.inj hst
    exact ⟨hbranch, hfits, hv, rfl⟩
  · intro hst
    exact ⟨_, hst.branch, _, ⟨hst.fits, hst.unoccupied⟩, _, hst.xudt, rfl⟩

/-- And the new state is that of the first output under the contract's lock, if there is any. -/
theorem findNewState_eq_ok_iff (hgroup : env.tx.groupInputs env.script = c :: rest)
    {st? : Option OpticrumState} :
    findNewState env = .ok st? ↔ NewStateOf env.script.codeHash env.tx st? := by
  have hfind := findOpticrumScript_output hgroup
  unfold findNewState NewStateOf
  cases hidx : findOpticrumScript env .output with
  | none =>
      rw [hidx] at hfind
      simp only [hfind, Except.ok.injEq, eq_comm]
  | some i =>
      rw [hidx] at hfind
      obtain ⟨o, ho, hout⟩ := hfind
      simp only [hout, Outcome.bind_eq_ok_iff, loadNewState_eq_ok_iff ho, Except.ok.injEq]
      exact exists_congr fun st => ⟨fun h => ⟨h.2.symm, h.1⟩, fun h => ⟨h.2, h.1.symm⟩⟩

/-- **Root.**  The root verifier returns the states of the first group cell and
of the first Opticrum output, and the verifier their comparison names. -/
theorem rootVerify_eq_ok_iff (hgroup : env.tx.groupInputs env.script = c :: rest)
    {ctx : Context} {name : VerifierName} :
    rootVerify env = .ok (ctx, name) ↔
      StateOf c.toCell ctx.oldState ∧
        NewStateOf env.script.codeHash env.tx ctx.newState ∧
        ctx.oldState.compare ctx.newState = name.pattern := by
  simp only [rootVerify, Outcome.bind_eq_ok_iff, loadOldState_eq_ok_iff hgroup,
    findNewState_eq_ok_iff hgroup, route_eq_ok_iff, Except.ok.injEq, Prod.mk.injEq]
  constructor
  · rintro ⟨old, hold, new, hnew, name, hname, rfl, rfl⟩
    exact ⟨hold, hnew, hname⟩
  · rintro ⟨hold, hnew, hname⟩
    exact ⟨_, hold, _, hnew, _, hname, rfl, rfl⟩

end Root

/-! ## The branch verifiers -/

section Branches

variable {env : Env} {c : LiveCell} {rest : List LiveCell} {ctx : Context} {u : PUnit}

/-- The channel search returns the position of the first raw entry that names
the channel, provided the cell *resolved* at that position passes the checks. -/
theorem findChannelInCelldeps_eq_ok_iff {channelOutpoint : OutPoint}
    {minCapacity : Option U64} {minXudtAmount : Option U128}
    {xudtTypeScript : Option (Option Script)} {i : ℕ} :
    findChannelInCelldeps env channelOutpoint minCapacity minXudtAmount xudtTypeScript =
        .ok (some i) ↔
      env.tx.rawCellDeps.findIdx? (fun dep => channelOutpoint.isAt dep.outPoint) = some i ∧
        ∃ channel, env.tx.resolvedCellDeps[i]? = some channel ∧
          channelMeets channel.toCell minCapacity minXudtAmount xudtTypeScript = .ok true := by
  simp only [findChannelInCelldeps, Env.loadTransactionCellDeps, sysCall, Outcome.mapErr_ok,
    Outcome.ok_bind]
  cases env.tx.rawCellDeps.findIdx? fun dep => channelOutpoint.isAt dep.outPoint with
  | none => simp
  | some j =>
      simp only [Env.loadCell, Env.cells, Env.liveCells, List.getElem?_map]
      cases hch : env.tx.resolvedCellDeps[j]? with
      | none =>
          simp only [Option.map_none, Outcome.err, Except.ok.injEq, reduceCtorEq, false_iff]
          rintro ⟨hij, channel, hchannel, -⟩
          obtain rfl := Option.some.inj hij
          simp [hch] at hchannel
      | some channel =>
          simp only [Option.map_some, Outcome.bind_eq_ok_iff, Except.ok.injEq]
          constructor
          · rintro ⟨meets, hmeets, hi⟩
            cases meets with
            | false => simp at hi
            | true =>
                obtain rfl : j = i := by simpa using hi
                exact ⟨rfl, channel, hch, hmeets⟩
          · rintro ⟨hij, channel', hchannel', hmeets⟩
            obtain rfl := Option.some.inj hij
            obtain rfl : channel = channel' := by simpa [hch] using hchannel'
            exact ⟨true, hmeets, by simp⟩

/-- The header of a cell dep is there when the transaction lists the header of its block. -/
theorem loadHeader_cellDep_eq_ok_iff {i : ℕ} {channel : LiveCell}
    (h : env.tx.resolvedCellDeps[i]? = some channel) {header : Header} :
    env.loadHeader i .cellDep = .ok header ↔
      env.tx.hasHeader channel.header ∧ channel.header = header := by
  simp only [Env.loadHeader, Env.liveCells, h]
  split <;> simp_all

variable [ScriptHash]

/-- An order is cancelled by its buyer, and nothing else is asked. -/
theorem orderCancelVerify_eq_ok_iff {a : OrderArgs} {d : OrderData}
    (hold : ctx.oldState.branch = .orderCell a d) :
    orderCancelVerify env ctx = .ok u ↔ Signed env.tx a.buyerLockHash := by
  simp only [orderCancelVerify, Context.expectOldOrder, hold, Outcome.ok_bind,
    requireInputLock_eq_ok_iff]

/-- An order is matched by the seller of the match, with a channel that is found and meets the
order, at the same rate, with the pool and the tokens carried over, and the channel younger than
the order.  The position of the channel among the deps is what ties the checks together. -/
theorem orderMatchVerify_eq_ok_iff (hgroup : env.tx.groupInputs env.script = c :: rest)
    {a : OrderArgs} {d : OrderData} {st : OpticrumState} {ma : MatchArgs} {md : MatchData}
    (hold : ctx.oldState.branch = .orderCell a d) (hnew : ctx.newState = some st)
    (hst : st.branch = .matchCell ma md) :
    orderMatchVerify env ctx = .ok u ↔
      ∃ i channel,
        env.tx.rawCellDeps.findIdx? (fun dep => ma.channelOutpoint.isAt dep.outPoint) = some i ∧
        env.tx.resolvedCellDeps[i]? = some channel ∧
        channelMeets channel.toCell
          (if 0 < d.xudtAmount then none else some d.channelCapacity)
          (if 0 < d.xudtAmount then some d.xudtAmount else none)
          (ctx.oldState.xudt.map fun x => some x.2) = .ok true ∧
        Signed env.tx ma.sellerLockHash ∧
        (d.shannonsPerBlock = md.shannonsPerBlock ∧ md.lastExtractionBlock = 0) ∧
        ctx.oldState.unoccupiedCapacity = st.unoccupiedCapacity ∧
        d.xudtAmount = md.xudtAmount ∧
        (env.tx.hasHeader c.header ∧ env.tx.hasHeader channel.header) ∧
        c.block < channel.block := by
  simp only [orderMatchVerify, Context.expectOldOrder, hold, Context.expectNewMatch, hnew, hst,
    Outcome.ok_bind]
  constructor
  · intro h
    obtain ⟨channel?, hfind, h⟩ := Outcome.bind_eq_ok_iff.mp h
    cases channel? with
    | none => exact absurd h (fail_ne_ok _ _)
    | some i =>
        obtain ⟨hidx, channel, hchannel, hmeets⟩ := findChannelInCelldeps_eq_ok_iff.mp hfind
        simp only [Outcome.bind_eq_ok_iff, requireInputLock_eq_ok_iff, require_eq_ok_iff,
          sysCallOr_eq_ok_iff, Env.loadHeader_groupInput_eq_ok_iff hgroup,
          loadHeader_cellDep_eq_ok_iff hchannel] at h
        obtain ⟨-, hsigned, -, hinit, -, hpool, -, hamount, _, ⟨hc, rfl⟩, _, ⟨hch, rfl⟩, hlt⟩ := h
        refine ⟨i, channel, hidx, hchannel, hmeets, hsigned, by simpa using hinit, hpool,
          hamount, ⟨hc, hch⟩, ?_⟩
        simpa [BitVec.le_def, LiveCell.block] using hlt
  · rintro ⟨i, channel, hidx, hchannel, hmeets, hsigned, hinit, hpool, hamount, ⟨hc, hch⟩, hlt⟩
    have hfind := findChannelInCelldeps_eq_ok_iff.mpr ⟨hidx, channel, hchannel, hmeets⟩
    rw [hfind, Outcome.ok_bind]
    simp only [Outcome.bind_eq_ok_iff, requireInputLock_eq_ok_iff, require_eq_ok_iff,
      sysCallOr_eq_ok_iff, Env.loadHeader_groupInput_eq_ok_iff hgroup,
      loadHeader_cellDep_eq_ok_iff hchannel]
    refine ⟨⟨⟩, hsigned, ⟨⟩, by simpa using hinit, ⟨⟩, hpool, ⟨⟩, hamount, _, ⟨hc, rfl⟩, _,
      ⟨hch, rfl⟩, ?_⟩
    simpa [BitVec.le_def, LiveCell.block] using hlt

/-- A match is destroyed by its seller once the rent reaches its value. -/
theorem matchDestroyVerify_eq_ok_iff (hgroup : env.tx.groupInputs env.script = c :: rest)
    {a : MatchArgs} {d : MatchData} (hst : StateOf c.toCell ctx.oldState)
    (hold : ctx.oldState.branch = .matchCell a d) :
    matchDestroyVerify env ctx = .ok u ↔
      Signed env.tx a.sellerLockHash ∧
        ∃ tip, RentDue env.tx c d tip ∧ valueOf c.toCell ≤ rentAt c d tip := by
  simp only [matchDestroyVerify, Context.expectOldMatch, hold, Outcome.ok_bind,
    Outcome.bind_eq_ok_iff, requireInputLock_eq_ok_iff, isExhausted_eq_ok_iff hgroup hst hold,
    require_eq_ok_iff]
  constructor
  · rintro ⟨-, hsigned, _, ⟨tip, hdue, rfl⟩, hexhausted⟩
    exact ⟨hsigned, tip, hdue, by simpa using hexhausted⟩
  · rintro ⟨hsigned, tip, hdue, hexhausted⟩
    exact ⟨⟨⟩, hsigned, _, ⟨tip, hdue, rfl⟩, by simpa using hexhausted⟩

omit [ScriptHash] in
/-- The amount check compares natural numbers, whichever asset the cell holds. -/
theorem checkExtraction_eq_ok_iff {o : Cell} {d' : MatchData} {st : OpticrumState} {r : U64}
    (hst : StateOf c.toCell ctx.oldState) (hnew : ctx.newState = some st)
    (hst' : StateOf o st) :
    checkExtraction ctx d' r = .ok u ↔ extracted c.toCell o d' = r.toNat := by
  rw [checkExtraction, hst.xudt, hnew, extracted]
  cases xudtOf c.toCell with
  | none =>
      simp only [require_eq_ok_iff, ← BitVec.toNat_inj, toNat_saturatingSub, hst.unoccupied,
        hst'.unoccupied]
  | some x =>
      simp only [require_eq_ok_iff, ← BitVec.toNat_inj, toNat_saturatingSub,
        toNat_setWidth_of_le (show 64 ≤ 128 by omega)]

omit [ScriptHash] in
/-- The seller's side: the channel is listed, the rent does not reach the value of the match,
what is taken out is the rent to the unit, and the stored block becomes the tip. -/
theorem sellerExtractVerify_eq_ok_iff (hgroup : env.tx.groupInputs env.script = c :: rest)
    {a : MatchArgs} {d d' : MatchData} {o : Cell} {st : OpticrumState}
    (hst : StateOf c.toCell ctx.oldState) (hold : ctx.oldState.branch = .matchCell a d)
    (hnew : ctx.newState = some st) (hst' : StateOf o st) :
    sellerExtractVerify env ctx a d' = .ok u ↔
      ChannelListed env.tx a.channelOutpoint ∧
        ∃ tip, RentDue env.tx c d tip ∧ rentAt c d tip < valueOf c.toCell ∧
          extracted c.toCell o d' = rentAt c d tip ∧ d'.lastExtractionBlock.toNat = tip := by
  simp only [sellerExtractVerify, checkChannelExistence_eq, Outcome.ok_bind,
    Outcome.bind_eq_ok_iff, require_eq_ok_iff, isExhausted_eq_ok_iff hgroup hst hold,
    liquidityRent_eq_ok_iff hgroup hold, checkExtraction_eq_ok_iff hst hnew hst',
    loadHeaderBlockNumber_eq_ok_iff, decide_eq_true_eq]
  constructor
  · rintro ⟨-, hlisted, _, ⟨tip, hdue, rfl⟩, -, halive, r, ⟨tip', hdue', hr⟩, -, hexact, v, hv,
      hclock⟩
    obtain rfl : tip = tip' := Option.some.inj (hdue.isTip.symm.trans hdue'.isTip)
    obtain htip : tip = v.toNat := Option.some.inj (hdue.isTip.symm.trans hv)
    exact ⟨hlisted, tip, hdue, by simpa using halive, hexact.trans hr, by rw [hclock, htip]⟩
  · rintro ⟨hlisted, tip, hdue, halive, hexact, hclock⟩
    have hr : (BitVec.ofNat 64 (rentAt c d tip)).toNat = rentAt c d tip := by
      rw [toNat_ofNat_of_lt hdue.fits]
    exact ⟨⟨⟩, hlisted, _, ⟨tip, hdue, rfl⟩, ⟨⟩, by simpa using halive, _, ⟨tip, hdue, hr⟩, ⟨⟩,
      hexact.trans hr.symm, d'.lastExtractionBlock, by rw [hdue.isTip, hclock], rfl⟩

omit [ScriptHash] in
/-- Behind the root's comparison of the tokens, the buyer's type check always
passes: what is left is the clock. -/
theorem buyerUpdateVerify_eq_ok_iff {d d' : MatchData} {st : OpticrumState}
    (hnew : ctx.newState = some st) (hxudt : ctx.oldState.xudt = st.xudt) :
    buyerUpdateVerify ctx d d' = .ok u ↔ d'.lastExtractionBlock = d.lastExtractionBlock := by
  simp only [buyerUpdateVerify, hnew, Option.map_some, ← hxudt, Outcome.bind_eq_ok_iff,
    require_eq_ok_iff]
  cases ctx.oldState.xudt with
  | none => simp
  | some x => simp

/-- An update keeps the args and the rate.  One of the parties has signed and the other has not;
which of them decides about the rest. -/
theorem matchUpdateVerify_eq_ok_iff
    {a a' : MatchArgs} {d d' : MatchData} {st : OpticrumState}
    (hold : ctx.oldState.branch = .matchCell a d)
    (hnew : ctx.newState = some st) (hbranch : st.branch = .matchCell a' d')
    (hxudt : ctx.oldState.xudt = st.xudt) :
    matchUpdateVerify env ctx = .ok u ↔
      a = a' ∧ d.shannonsPerBlock = d'.shannonsPerBlock ∧
        (Signed env.tx a.sellerLockHash ∧ ¬ Signed env.tx a.orderArgs.buyerLockHash ∧
            sellerExtractVerify env ctx a d' = .ok u ∨
          ¬ Signed env.tx a.sellerLockHash ∧ Signed env.tx a.orderArgs.buyerLockHash ∧
            d'.lastExtractionBlock = d.lastExtractionBlock) := by
  simp only [matchUpdateVerify, Context.expectOldMatch, hold, Context.expectNewMatch, hnew,
    hbranch, Outcome.ok_bind, Outcome.bind_eq_ok_iff, require_eq_ok_iff, hasInputLock_eq]
  by_cases hs : Signed env.tx a.sellerLockHash <;>
    by_cases hb : Signed env.tx a.orderArgs.buyerLockHash <;>
      simp [hs, hb, buyerUpdateVerify_eq_ok_iff hnew hxudt]

end Branches

/-! ## The script -/

/-- The contract accepts `tx` for the script group of `lock`.  Errors and aborts both reject. -/
def accepts [ScriptHash] (tx : Transaction) (lock : Script) : Prop := run ⟨tx, lock⟩ = .ok ⟨⟩

instance [ScriptHash] (tx : Transaction) (lock : Script) : Decidable (accepts tx lock) :=
  inferInstanceAs (Decidable (run ⟨tx, lock⟩ = .ok ⟨⟩))

section Script

variable [ScriptHash] {tx : Transaction} {c : LiveCell} {rest : List LiveCell}

omit [ScriptHash] in
/-- The group of `c` as the environment of its script names it. -/
theorem groupInputs_mk (hgroup : tx.groupInputs c.lock = c :: rest) :
    (Env.mk tx c.lock).tx.groupInputs (Env.mk tx c.lock).script = c :: rest := hgroup

/-- The states the root builds, spelled out over the two cells. -/
theorem accepts_iff_exists (hgroup : tx.groupInputs c.lock = c :: rest) :
    accepts tx c.lock ↔ ∃ ctx name,
      (StateOf c.toCell ctx.oldState ∧ NewStateOf c.lock.codeHash tx ctx.newState ∧
        ctx.oldState.compare ctx.newState = name.pattern) ∧
      branchVerify ⟨tx, c.lock⟩ ctx name = .ok ⟨⟩ := by
  rw [accepts, run, Outcome.bind_eq_ok_iff, Prod.exists]
  exact exists_congr fun ctx => exists_congr fun name =>
    and_congr_left' (rootVerify_eq_ok_iff (groupInputs_mk hgroup))

/-- **Soundness.**  An accepted transaction makes one of the transitions. -/
theorem transition_of_accepts (hgroup : tx.groupInputs c.lock = c :: rest)
    (h : accepts tx c.lock) : Transition tx c (opticrumOutput? c.lock.codeHash tx) := by
  obtain ⟨ctx, name, ⟨hold, hnew, hname⟩, hbranch⟩ := (accepts_iff_exists hgroup).mp h
  cases name with
  | orderCancel =>
      obtain ⟨⟨a, d, hb⟩, hnone⟩ := compare_eq_orderCancel_iff.mp hname
      rw [hnone] at hnew
      rw [hnew.eq_none]
      exact .orderCancel (hold.isOrder hb) ((orderCancelVerify_eq_ok_iff hb).mp hbranch)
  | orderMatch =>
      obtain ⟨a, d, st, ma, md, hb, hst, hsb, rfl, hx⟩ := compare_eq_orderMatch_iff.mp hname
      rw [hst] at hnew
      obtain ⟨o, hout, hso⟩ := hnew.exists_eq_some
      rw [hout]
      obtain ⟨i, channel, hi, hch, hmeets, hsigned, ⟨hrate, hclock⟩, hpool, hamount, ⟨hoh, hchh⟩,
        hlt⟩ := (orderMatchVerify_eq_ok_iff (groupInputs_mk hgroup) hb hst hsb).mp hbranch
      -- the verifier compares states; a state is determined by its cell
      rw [hold.xudt] at hmeets
      refine .orderMatch (hold.isOrder hb) (hso.isMatch hsb) rfl ?_ hi hch hmeets hsigned hrate
        hclock ?_ hamount hoh hchh hlt
      · rw [← hold.xudt, hx, hso.xudt]
      · rw [← hold.unoccupied, hpool, hso.unoccupied]
  | matchUpdate =>
      obtain ⟨a, d, st, d', hb, hst, hsb, hx⟩ := compare_eq_matchUpdate_iff.mp hname
      rw [hst] at hnew
      obtain ⟨o, hout, hso⟩ := hnew.exists_eq_some
      rw [hout]
      have hxudt : xudtOf c.toCell = xudtOf o := by rw [← hold.xudt, hx, hso.xudt]
      obtain ⟨-, hrate, hside⟩ := (matchUpdateVerify_eq_ok_iff hb hst hsb hx).mp hbranch
      -- the two sides exclude each other, as each asks for one signature alone
      rcases hside with ⟨hs, hnb, hseller⟩ | ⟨hns, hb', hclock⟩
      · obtain ⟨hlisted, tip, hdue, halive, hexact, hclock⟩ :=
          (sellerExtractVerify_eq_ok_iff (groupInputs_mk hgroup) hold hb hst hso).mp hseller
        exact .sellerExtract (hold.isMatch hb) (hso.isMatch hsb) hxudt hrate hs hnb hlisted hdue
          halive hexact hclock
      · exact .buyerUpdate (hold.isMatch hb) (hso.isMatch hsb) hxudt hrate hns hb' hclock
  | matchDestroy =>
      obtain ⟨⟨a, d, hb⟩, hnone⟩ := compare_eq_matchDestroy_iff.mp hname
      rw [hnone] at hnew
      rw [hnew.eq_none]
      obtain ⟨hsigned, tip, hdue, hexhausted⟩ :=
        (matchDestroyVerify_eq_ok_iff (groupInputs_mk hgroup) hold hb).mp hbranch
      exact .matchDestroy (hold.isMatch hb) hsigned hdue hexhausted

/-- **Completeness.**  A transaction that makes one of the transitions is accepted,
provided the occupied capacities of the two inspected cells fit in 64 bits. -/
theorem accepts_of_transition (hgroup : tx.groupInputs c.lock = c :: rest)
    (hfits : c.occupied < 2 ^ 64)
    (hfits' : ∀ o, opticrumOutput? c.lock.codeHash tx = some o → o.occupied < 2 ^ 64)
    (h : Transition tx c (opticrumOutput? c.lock.codeHash tx)) : accepts tx c.lock := by
  rw [accepts_iff_exists hgroup]
  unfold NewStateOf
  -- the first Opticrum output decides which routes there are
  cases hout : opticrumOutput? c.lock.codeHash tx with
  | none =>
      rw [hout] at h
      cases h with
      | orderCancel hold hsigned =>
          refine ⟨⟨stateWith c.toCell _, none⟩, .orderCancel,
            ⟨stateOf_stateWith hold hfits, rfl, ?_⟩, ?_⟩
          · exact compare_eq_orderCancel_iff.mpr ⟨⟨_, _, rfl⟩, rfl⟩
          · exact (orderCancelVerify_eq_ok_iff rfl).mpr hsigned
      | matchDestroy hold hsigned hdue hexhausted =>
          have hst := stateOf_stateWith hold hfits
          refine ⟨⟨stateWith c.toCell _, none⟩, .matchDestroy, ⟨hst, rfl, ?_⟩, ?_⟩
          · exact compare_eq_matchDestroy_iff.mpr ⟨⟨_, _, rfl⟩, rfl⟩
          · exact (matchDestroyVerify_eq_ok_iff (groupInputs_mk hgroup) hst rfl).mpr
              ⟨hsigned, _, hdue, hexhausted⟩
  | some o =>
      have hfitsO := hfits' o hout
      rw [hout] at h
      cases h with
      | orderMatch hold hnew hargs hxudt hi hch hmeets hsigned hrate hclock hpool hamount hoh
          hchh hlt =>
          have hst := stateOf_stateWith hold hfits
          have hst' := stateOf_stateWith hnew hfitsO
          refine ⟨⟨stateWith c.toCell _, some (stateWith o _)⟩, .orderMatch,
            ⟨hst, ⟨_, rfl, hst'⟩, ?_⟩, ?_⟩
          · exact compare_eq_orderMatch_iff.mpr ⟨_, _, _, _, _, rfl, rfl, rfl, hargs, hxudt⟩
          · refine (orderMatchVerify_eq_ok_iff (groupInputs_mk hgroup) rfl rfl rfl).mpr
              ⟨_, _, hi, hch, hmeets, hsigned, ⟨hrate, hclock⟩, ?_, hamount, ⟨hoh, hchh⟩, hlt⟩
            exact BitVec.eq_of_toNat_eq (by rw [hst.unoccupied, hst'.unoccupied, hpool])
      | sellerExtract hold hnew hxudt hrate hsigned hunsigned hlisted hdue halive hexact hclock =>
          have hst := stateOf_stateWith hold hfits
          have hst' := stateOf_stateWith hnew hfitsO
          refine ⟨⟨stateWith c.toCell _, some (stateWith o _)⟩, .matchUpdate,
            ⟨hst, ⟨_, rfl, hst'⟩, ?_⟩, ?_⟩
          · exact compare_eq_matchUpdate_iff.mpr ⟨_, _, _, _, rfl, rfl, rfl, hxudt⟩
          · refine (matchUpdateVerify_eq_ok_iff rfl rfl rfl hxudt).mpr
              ⟨rfl, hrate, .inl ⟨hsigned, hunsigned, ?_⟩⟩
            exact (sellerExtractVerify_eq_ok_iff (groupInputs_mk hgroup) hst rfl rfl
              hst').mpr ⟨hlisted, _, hdue, halive, hexact, hclock⟩
      | buyerUpdate hold hnew hxudt hrate hunsigned hsigned hclock =>
          have hst := stateOf_stateWith hold hfits
          have hst' := stateOf_stateWith hnew hfitsO
          refine ⟨⟨stateWith c.toCell _, some (stateWith o _)⟩, .matchUpdate,
            ⟨hst, ⟨_, rfl, hst'⟩, ?_⟩, ?_⟩
          · exact compare_eq_matchUpdate_iff.mpr ⟨_, _, _, _, rfl, rfl, rfl, hxudt⟩
          · exact (matchUpdateVerify_eq_ok_iff rfl rfl rfl hxudt).mpr
              ⟨rfl, hrate, .inr ⟨hunsigned, hsigned, hclock⟩⟩

/-- What the script cannot accept without: it computes the occupied capacity of
both cells it inspects. -/
theorem occupied_lt_of_accepts (hgroup : tx.groupInputs c.lock = c :: rest)
    (h : accepts tx c.lock) :
    c.occupied < 2 ^ 64 ∧
      ∀ o, opticrumOutput? c.lock.codeHash tx = some o → o.occupied < 2 ^ 64 := by
  obtain ⟨ctx, name, ⟨hold, hnew, -⟩, -⟩ := (accepts_iff_exists hgroup).mp h
  refine ⟨hold.fits, fun o ho => ?_⟩
  rw [NewStateOf, ho] at hnew
  obtain ⟨st, -, hst⟩ := hnew
  exact hst.fits

/-- **Acceptance.**  The script accepts exactly the transitions. -/
theorem accepts_iff (hgroup : tx.groupInputs c.lock = c :: rest) :
    accepts tx c.lock ↔
      (c.occupied < 2 ^ 64 ∧
        ∀ o, opticrumOutput? c.lock.codeHash tx = some o → o.occupied < 2 ^ 64) ∧
      Transition tx c (opticrumOutput? c.lock.codeHash tx) :=
  ⟨fun h => ⟨occupied_lt_of_accepts hgroup h, transition_of_accepts hgroup h⟩,
    fun h => accepts_of_transition hgroup h.1.1 h.1.2 h.2⟩

end Script

end Opticrum
