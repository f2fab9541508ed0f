import Opticrum.Contract.Lifecycle

/-!
# What a run of the script looks at

Of a transaction a run of the script reads the first cell of its group and the first
Opticrum output, whether the parties these two cells name are among the lock hashes of
the inputs, the cell it finds where the channel is named, the number of the first header
dep, and whether the blocks of the group's first cell and of the channel are among the
header deps.  `SameView` says that two transactions agree on all of it, and
`SameView.run_eq` that the script then returns the same: the same acceptance, the same
error, the same abort.

## Use

Whoever adds to a transaction what the script does not read keeps its verdict.  That is how an
instruction prepared for one transaction survives what a wallet does to it afterwards: inputs
of other parties behind it, outputs behind its own, deps and headers at the end.

The proof goes through the functions once more, but it compares two runs and decides neither.
No check has to be known to succeed: where the two runs read the same, they return the same
fault as well.
-/

namespace Opticrum

open Rust Ckb

section View

/-- The two cells a run decodes.  The second is missing when there is no Opticrum output. -/
def decodedCells (lock : Script) (tx : Transaction) : List Cell :=
  (tx.groupInputs lock).head?.toList.map LiveCell.toCell ++
    (opticrumOutput? lock.codeHash tx).toList

/-- The lock hashes a cell names as its parties.  Only these are looked for among the inputs. -/
def partiesOf (c : Cell) : List Byte32 :=
  match branchOf c with
  | .ok (.orderCell a _) => [a.buyerLockHash]
  | .ok (.matchCell a _) => [a.orderArgs.buyerLockHash, a.sellerLockHash]
  | _ => []

/-- The channel a cell names. -/
def channelOf? (c : Cell) : Option OutPoint :=
  match branchOf c with
  | .ok (.matchCell a _) => some a.channelOutpoint
  | _ => none

/-- The cell the script loads for a channel: at the position of the first raw entry that
names it, if there is one, the cell resolved there, if there is one. -/
def channelCellAt (tx : Transaction) (channelOutpoint : OutPoint) : Option (Option LiveCell) :=
  (tx.rawCellDeps.findIdx? fun dep => channelOutpoint.isAt dep.outPoint).map
    fun i => tx.resolvedCellDeps[i]?

/-- The cells whose blocks a run asks for.  Whether a block is among the header deps matters for
these and for no others. -/
def datedCells (lock : Script) (tx : Transaction) : List LiveCell :=
  (tx.groupInputs lock).head?.toList ++
    ((decodedCells lock tx).filterMap channelOf?).filterMap fun o => (channelCellAt tx o).join

/-- The two transactions look the same to the script `lock`.  Each field is one of the things it
reads; what is not among them, such as the other cells of its group and the outputs behind the
first Opticrum one, may differ. -/
structure SameView [ScriptHash] (lock : Script) (tx tx' : Transaction) : Prop where
  first : (tx.groupInputs lock).head? = (tx'.groupInputs lock).head?
  output : opticrumOutput? lock.codeHash tx = opticrumOutput? lock.codeHash tx'
  signed : ∀ c ∈ decodedCells lock tx, ∀ lockHash ∈ partiesOf c,
    (Signed tx lockHash ↔ Signed tx' lockHash)
  channel : ∀ c ∈ decodedCells lock tx, ∀ o ∈ channelOf? c,
    channelCellAt tx o = channelCellAt tx' o
  tip : tx.headerDeps.head? = tx'.headerDeps.head?
  headers : ∀ c ∈ datedCells lock tx, tx.hasHeader c.header = tx'.hasHeader c.header

/-- An order names its buyer. -/
theorem IsOrder.mem_partiesOf {c : Cell} {a : OrderArgs} {d : OrderData} (h : IsOrder c a d) :
    a.buyerLockHash ∈ partiesOf c := by
  rw [partiesOf, show branchOf c = _ from h]
  exact List.mem_singleton_self _

/-- A match names its buyer and its seller. -/
theorem IsMatch.mem_partiesOf {c : Cell} {a : MatchArgs} {d : MatchData} (h : IsMatch c a d) :
    a.orderArgs.buyerLockHash ∈ partiesOf c ∧ a.sellerLockHash ∈ partiesOf c := by
  rw [partiesOf, show branchOf c = _ from h]
  simp

/-- And its channel. -/
theorem IsMatch.channelOf?_eq {c : Cell} {a : MatchArgs} {d : MatchData} (h : IsMatch c a d) :
    channelOf? c = some a.channelOutpoint := by
  rw [channelOf?, show branchOf c = _ from h]

/-! ## One position, one state -/

/-- What follows a computation may depend on it having returned. -/
theorem bind_congr_ok {ε α β : Type} {x : Outcome ε α} {f g : α → Outcome ε β}
    (h : ∀ a, x = .ok a → f a = g a) : x.bind f = x.bind g := by
  cases x with
  | error _ => rfl
  | ok a => exact h a rfl

variable {env env' : Env}

/-- A system call tells positions apart only by the cell it finds there. -/
theorem loadCell_congr {i i' : ℕ} {source : Source}
    (h : (env.cells source)[i]? = (env'.cells source)[i']?) :
    env.loadCell i source = env'.loadCell i' source := by
  rw [Env.loadCell, Env.loadCell, h]

/-- The unoccupied capacity is one of the cell. -/
theorem getUnoccupiedCapacity_congr {i i' : ℕ} {source : Source}
    (h : env.loadCell i source = env'.loadCell i' source) :
    getUnoccupiedCapacity env i source = getUnoccupiedCapacity env' i' source := by
  simp only [getUnoccupiedCapacity, Env.loadCellCapacity, Env.loadCellOccupiedCapacity, h]

/-- So is the amount of tokens, with the script they are under. -/
theorem parseXudt_congr {i i' : ℕ} {source : Source}
    (h : env.loadCell i source = env'.loadCell i' source) :
    parseXudt env i source = parseXudt env' i' source := by
  simp only [parseXudt, Env.loadCellData, Env.loadCellType, h]

/-- The old state is decoded from the first cell of the group and from the args of the running
script. -/
theorem loadOldState_congr (hscript : env.script = env'.script)
    (h : env.loadCell 0 .groupInput = env'.loadCell 0 .groupInput) :
    loadOldState env = loadOldState env' := by
  simp only [loadOldState, Env.loadCellData, Env.scriptArgs, hscript, h,
    getUnoccupiedCapacity_congr h, parseXudt_congr h]

theorem loadNewState_congr {i i' : ℕ} (h : env.loadCell i .output = env'.loadCell i' .output) :
    loadNewState env i = loadNewState env' i' := by
  simp only [loadNewState, Env.loadCellLock, Env.loadCellData, h, getUnoccupiedCapacity_congr h,
    parseXudt_congr h]

variable [ScriptHash] {lock : Script} {tx tx' : Transaction}

namespace SameView

/-- Both transactions give the script the same cell to inspect. -/
theorem loadCell_group (h : SameView lock tx tx') :
    Env.loadCell ⟨tx, lock⟩ 0 .groupInput = Env.loadCell ⟨tx', lock⟩ 0 .groupInput := by
  refine loadCell_congr ?_
  simp only [Env.cells, Env.liveCells, ← List.head?_eq_getElem?, List.head?_map, h.first]

/-- The new state is that of the same cell, wherever it stands among the outputs. -/
theorem findNewState_eq (h : SameView lock tx tx') {c : LiveCell} {rest rest' : List LiveCell}
    (hgroup : tx.groupInputs lock = c :: rest) (hgroup' : tx'.groupInputs lock = c :: rest') :
    findNewState ⟨tx, lock⟩ = findNewState ⟨tx', lock⟩ := by
  have hfind := @findOpticrumScript_output ⟨tx, lock⟩ c rest hgroup
  have hfind' := @findOpticrumScript_output ⟨tx', lock⟩ c rest' hgroup'
  unfold findNewState
  cases hi : findOpticrumScript ⟨tx, lock⟩ .output with
  | none =>
      rw [hi] at hfind
      cases hi' : findOpticrumScript ⟨tx', lock⟩ .output with
      | none => rfl
      | some i' =>
          rw [hi'] at hfind'
          obtain ⟨o, -, ho⟩ := hfind'
          rw [← h.output, hfind] at ho
          simp at ho
  | some i =>
      rw [hi] at hfind
      obtain ⟨o, hat, ho⟩ := hfind
      cases hi' : findOpticrumScript ⟨tx', lock⟩ .output with
      | none =>
          rw [hi', ← h.output, ho] at hfind'
          simp at hfind'
      | some i' =>
          rw [hi'] at hfind'
          obtain ⟨o', hat', ho'⟩ := hfind'
          obtain rfl : o = o' := Option.some.inj (ho.symm.trans (h.output.trans ho'))
          have hcell : Env.loadCell ⟨tx, lock⟩ i .output = Env.loadCell ⟨tx', lock⟩ i' .output :=
            loadCell_congr (hat.trans hat'.symm)
          simp only [loadNewState_congr hcell]

/-! ## The checks -/

/-- Whether a named party has signed is the same.  Other lock hashes may have come in. -/
theorem hasInputLock_eq (h : SameView lock tx tx') {c : Cell} (hc : c ∈ decodedCells lock tx)
    {lockHash : Byte32} (hparty : lockHash ∈ partiesOf c) :
    hasInputLock ⟨tx, lock⟩ lockHash = hasInputLock ⟨tx', lock⟩ lockHash := by
  rw [Opticrum.hasInputLock_eq, Opticrum.hasInputLock_eq]
  exact congrArg _ (decide_eq_decide.mpr (h.signed c hc lockHash hparty))

/-- So is the check for it, with whatever error it is made. -/
theorem requireInputLock_eq (h : SameView lock tx tx') {c : Cell} (hc : c ∈ decodedCells lock tx)
    {lockHash : Byte32} (hparty : lockHash ∈ partiesOf c) {e : OpticrumError} :
    requireInputLock ⟨tx, lock⟩ lockHash e = requireInputLock ⟨tx', lock⟩ lockHash e := by
  rw [requireInputLock, requireInputLock, h.hasInputLock_eq hc hparty]

/-- The header of the inspected cell is supplied by both or by none: its block is among those
`SameView` speaks of. -/
theorem loadHeader_group (h : SameView lock tx tx') :
    Env.loadHeader ⟨tx, lock⟩ 0 .groupInput = Env.loadHeader ⟨tx', lock⟩ 0 .groupInput := by
  simp only [Env.loadHeader, Env.liveCells, ← List.head?_eq_getElem?, ← h.first]
  cases hfirst : (tx.groupInputs lock).head? with
  | none => rfl
  | some c =>
      have hdated : c ∈ datedCells lock tx :=
        List.mem_append_left _ (by simp [hfirst])
      simp only [h.headers c hdated]

/-- The tip is the number of the first header dep.  Headers may be added behind it, not before
it. -/
theorem loadHeaderBlockNumber_eq (h : SameView lock tx tx') :
    loadHeaderBlockNumber ⟨tx, lock⟩ 0 = loadHeaderBlockNumber ⟨tx', lock⟩ 0 := by
  simp only [loadHeaderBlockNumber, Env.loadHeader, ← List.head?_eq_getElem?, h.tip]

/-- Base and tip are the same, and so is the rent, an overflow included. -/
theorem liquidityRent_eq (h : SameView lock tx tx') (st : OpticrumState) :
    st.liquidityRent ⟨tx, lock⟩ = st.liquidityRent ⟨tx', lock⟩ := by
  simp only [OpticrumState.liquidityRent, OpticrumState.baseBlock, h.loadHeader_group,
    h.loadHeaderBlockNumber_eq]

theorem isExhausted_eq (h : SameView lock tx tx') (st : OpticrumState) :
    st.isExhausted ⟨tx, lock⟩ = st.isExhausted ⟨tx', lock⟩ := by
  simp only [OpticrumState.isExhausted, h.liquidityRent_eq]

/-- Whether the channel is listed is asked for a channel that one of the two decoded cells
names. -/
theorem checkChannelExistence_eq (h : SameView lock tx tx') {c : Cell}
    (hc : c ∈ decodedCells lock tx) {o : OutPoint} (ho : channelOf? c = some o) :
    checkChannelExistence ⟨tx, lock⟩ o = checkChannelExistence ⟨tx', lock⟩ o := by
  have hlisted : ∀ t : Transaction, (channelCellAt t o).isSome =
      t.rawCellDeps.any fun dep => o.isAt dep.outPoint := by
    intro t
    rw [channelCellAt, Option.isSome_map, List.findIdx?_isSome]
  have heq := congrArg Option.isSome (h.channel c hc o ho)
  rw [hlisted, hlisted] at heq
  simp only [checkChannelExistence, Env.loadTransactionCellDeps, sysCall, Outcome.mapErr_ok,
    Outcome.ok_bind, heq]

/-! ## The verifiers -/

variable {ctx : Context} {c o : Cell}

/-- A cancellation asks for the buyer. -/
theorem orderCancelVerify_eq (h : SameView lock tx tx') (hc : c ∈ decodedCells lock tx)
    {a : OrderArgs} {d : OrderData} (hold : ctx.oldState.branch = .orderCell a d)
    (horder : IsOrder c a d) :
    orderCancelVerify ⟨tx, lock⟩ ctx = orderCancelVerify ⟨tx', lock⟩ ctx := by
  simp only [orderCancelVerify, Context.expectOldOrder, hold, Outcome.ok_bind,
    h.requireInputLock_eq hc horder.mem_partiesOf]

/-- A destruction asks for the seller and for the rent. -/
theorem matchDestroyVerify_eq (h : SameView lock tx tx') (hc : c ∈ decodedCells lock tx)
    {a : MatchArgs} {d : MatchData} (hold : ctx.oldState.branch = .matchCell a d)
    (hmatch : IsMatch c a d) :
    matchDestroyVerify ⟨tx, lock⟩ ctx = matchDestroyVerify ⟨tx', lock⟩ ctx := by
  simp only [matchDestroyVerify, Context.expectOldMatch, hold, Outcome.ok_bind,
    h.requireInputLock_eq hc hmatch.mem_partiesOf.2, h.isExhausted_eq]

/-- An update asks for both parties, for the channel the match names and for the rent.  The
successor has been decoded already. -/
theorem matchUpdateVerify_eq (h : SameView lock tx tx') (hc : c ∈ decodedCells lock tx)
    {a : MatchArgs} {d : MatchData} (hold : ctx.oldState.branch = .matchCell a d)
    (hmatch : IsMatch c a d) :
    matchUpdateVerify ⟨tx, lock⟩ ctx = matchUpdateVerify ⟨tx', lock⟩ ctx := by
  have hseller : ∀ newMatchData,
      sellerExtractVerify ⟨tx, lock⟩ ctx a newMatchData =
        sellerExtractVerify ⟨tx', lock⟩ ctx a newMatchData := by
    intro newMatchData
    simp only [sellerExtractVerify, h.checkChannelExistence_eq hc hmatch.channelOf?_eq,
      h.isExhausted_eq, h.liquidityRent_eq, h.loadHeaderBlockNumber_eq]
  simp only [matchUpdateVerify, Context.expectOldMatch, hold, Outcome.ok_bind,
    h.hasInputLock_eq hc hmatch.mem_partiesOf.1, h.hasInputLock_eq hc hmatch.mem_partiesOf.2,
    hseller]

end SameView

/-! ### The channel -/

section Channel

variable {channelOutpoint : OutPoint} {minCapacity : Option U64} {minXudtAmount : Option U128}
  {xudtTypeScript : Option (Option Script)}

omit [ScriptHash] in
/-- No entry names the channel, or nothing is resolved where one does. -/
theorem findChannelInCelldeps_of_join_eq_none
    (hat : (channelCellAt tx channelOutpoint).join = none) :
    findChannelInCelldeps ⟨tx, lock⟩ channelOutpoint minCapacity minXudtAmount xudtTypeScript =
      .ok none := by
  simp only [findChannelInCelldeps, Env.loadTransactionCellDeps, sysCall, Outcome.mapErr_ok,
    Outcome.ok_bind]
  unfold channelCellAt at hat
  cases hi : tx.rawCellDeps.findIdx? fun dep => channelOutpoint.isAt dep.outPoint with
  | none => rfl
  | some i =>
      rw [hi] at hat
      have hnone : tx.resolvedCellDeps[i]? = none := hat
      simp [Env.loadCell, Env.cells, Env.liveCells, hnone, Outcome.err]

omit [ScriptHash] in
/-- The cell resolved where the first entry names the channel is checked. -/
theorem exists_findChannelInCelldeps (lock : Script) {channel : LiveCell}
    (hat : channelCellAt tx channelOutpoint = some (some channel)) :
    ∃ i, tx.resolvedCellDeps[i]? = some channel ∧
      ∀ minCapacity minXudtAmount xudtTypeScript,
        findChannelInCelldeps ⟨tx, lock⟩ channelOutpoint minCapacity minXudtAmount
            xudtTypeScript =
          (channelMeets channel.toCell minCapacity minXudtAmount xudtTypeScript).bind
            fun meets => .ok (if meets then some i else none) := by
  obtain ⟨i, hi, hcell⟩ := Option.map_eq_some_iff.mp hat
  refine ⟨i, hcell, fun minCapacity minXudtAmount xudtTypeScript => ?_⟩
  simp only [findChannelInCelldeps, Env.loadTransactionCellDeps, sysCall, Outcome.mapErr_ok,
    Outcome.ok_bind, hi]
  simp only [Env.loadCell, Env.cells, Env.liveCells, List.getElem?_map, hcell, Option.map_some]
  rfl

end Channel

namespace SameView

variable {ctx : Context} {c o : Cell}

/-- The header of the channel is supplied by both or by none.  Its position among the resolved
deps may differ, as groups expand differently. -/
theorem loadHeader_channel (h : SameView lock tx tx') (ho : o ∈ decodedCells lock tx)
    {channelOutpoint : OutPoint} (hnamed : channelOf? o = some channelOutpoint)
    {channel : LiveCell} (hat : channelCellAt tx channelOutpoint = some (some channel)) {i i' : ℕ}
    (hi : tx.resolvedCellDeps[i]? = some channel)
    (hi' : tx'.resolvedCellDeps[i']? = some channel) :
    Env.loadHeader ⟨tx, lock⟩ i .cellDep = Env.loadHeader ⟨tx', lock⟩ i' .cellDep := by
  have hdated : channel ∈ datedCells lock tx := by
    refine List.mem_append_right _ (List.mem_filterMap.mpr ⟨channelOutpoint, ?_, ?_⟩)
    · exact List.mem_filterMap.mpr ⟨o, ho, hnamed⟩
    · rw [hat]
      rfl
  simp only [Env.loadHeader, Env.liveCells, hi, hi', h.headers channel hdated]

/-- A match asks for its seller and for the channel: the cell that is found for it, its capacity
and tokens, and the block it is from. -/
theorem orderMatchVerify_eq (h : SameView lock tx tx') (ho : o ∈ decodedCells lock tx)
    {a : OrderArgs} {d : OrderData} {st : OpticrumState} {ma : MatchArgs} {md : MatchData}
    (hold : ctx.oldState.branch = .orderCell a d) (hnew : ctx.newState = some st)
    (hst : st.branch = .matchCell ma md) (hmatch : IsMatch o ma md) :
    orderMatchVerify ⟨tx, lock⟩ ctx = orderMatchVerify ⟨tx', lock⟩ ctx := by
  have hsame := h.channel o ho _ hmatch.channelOf?_eq
  simp only [orderMatchVerify, Context.expectOldOrder, hold, Context.expectNewMatch, hnew, hst,
    Outcome.ok_bind]
  cases hat : (channelCellAt tx ma.channelOutpoint).join with
  | none =>
      rw [findChannelInCelldeps_of_join_eq_none hat,
        findChannelInCelldeps_of_join_eq_none (hsame ▸ hat)]
      rfl
  | some channel =>
      have hchannel := Option.join_eq_some_iff.mp hat
      obtain ⟨i, hi, hfind⟩ := exists_findChannelInCelldeps lock hchannel
      obtain ⟨i', hi', hfind'⟩ := exists_findChannelInCelldeps lock (hsame ▸ hchannel)
      rw [hfind, hfind']
      have hheader := h.loadHeader_channel ho hmatch.channelOf?_eq hchannel hi hi'
      cases channelMeets channel.toCell _ _ _ with
      | error _ => rfl
      | ok meets =>
          cases meets with
          | false => rfl
          | true =>
              simp only [Except.bind, if_true, Outcome.ok_bind, hheader, h.loadHeader_group,
                h.requireInputLock_eq ho hmatch.mem_partiesOf.2]

/-! ## The script -/

/-- **The view.**  Transactions that look the same to the script get the same verdict. -/
theorem run_eq (h : SameView lock tx tx') : run ⟨tx, lock⟩ = run ⟨tx', lock⟩ := by
  have hold : loadOldState ⟨tx, lock⟩ = loadOldState ⟨tx', lock⟩ :=
    loadOldState_congr rfl h.loadCell_group
  cases hgroup : tx.groupInputs lock with
  | nil =>
      -- without a group there is no old state
      have hnone : loadOldState ⟨tx, lock⟩ = .err (.sys .indexOutOfBound) := by
        simp only [loadOldState, Env.loadCellData, Env.loadCell, Env.cells, Env.liveCells, hgroup]
        rfl
      rw [run, run, rootVerify, rootVerify, ← hold, hnone]
      rfl
  | cons c rest =>
      obtain ⟨rest', hgroup'⟩ : ∃ rest', tx'.groupInputs lock = c :: rest' := by
        have hfirst := h.first
        rw [hgroup, List.head?_cons, eq_comm, List.head?_eq_some_iff] at hfirst
        exact hfirst
      have hfirst : c.toCell ∈ decodedCells lock tx :=
        List.mem_append_left _ (by simp [hgroup])
      have hroot : rootVerify ⟨tx, lock⟩ = rootVerify ⟨tx', lock⟩ := by
        rw [rootVerify, rootVerify, hold, h.findNewState_eq hgroup hgroup']
      rw [run, run, ← hroot]
      refine bind_congr_ok fun x hx => ?_
      obtain ⟨ctx, name⟩ := x
      obtain ⟨hst, hnew, hname⟩ := (@rootVerify_eq_ok_iff ⟨tx, lock⟩ c rest hgroup _ _).mp hx
      cases name with
      | orderCancel =>
          obtain ⟨⟨a, d, hb⟩, -⟩ := compare_eq_orderCancel_iff.mp hname
          exact h.orderCancelVerify_eq hfirst hb (hst.isOrder hb)
      | orderMatch =>
          obtain ⟨a, d, st, ma, md, hb, hsome, hsb, -, -⟩ := compare_eq_orderMatch_iff.mp hname
          rw [hsome] at hnew
          obtain ⟨o, hout, hso⟩ := hnew.exists_eq_some
          have hdecoded : o ∈ decodedCells lock tx := by
            refine List.mem_append_right _ ?_
            rw [show opticrumOutput? lock.codeHash tx = some o from hout]
            exact List.mem_singleton_self _
          exact h.orderMatchVerify_eq hdecoded hb hsome hsb (hso.isMatch hsb)
      | matchUpdate =>
          obtain ⟨a, d, st, d', hb, -⟩ := compare_eq_matchUpdate_iff.mp hname
          exact h.matchUpdateVerify_eq hfirst hb (hst.isMatch hb)
      | matchDestroy =>
          obtain ⟨⟨a, d, hb⟩, -⟩ := compare_eq_matchDestroy_iff.mp hname
          exact h.matchDestroyVerify_eq hfirst hb (hst.isMatch hb)

end SameView

end View

end Opticrum
