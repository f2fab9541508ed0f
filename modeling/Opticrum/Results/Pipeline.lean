import Opticrum.Calculator.Pipeline
import Opticrum.Results.Builders
import Opticrum.Results.Channel

/-!
# The place of a builder in a pipeline

A binary adds the dep of the system lock before the builder's instruction or after it.
For every builder but one the place does not matter: `prepared_builders_agree` says that
what passes on a new skeleton passes behind any dep groups.  The exception is
`match_order`: the script looks for the channel among the raw deps and loads it from the
resolved ones, and a group of two before the channel makes it load the code of the
contract instead.  `match_goes_first` has both orders.

## How it is proved

A run of the builder's instruction behind `pre` is a run on a new skeleton, for a framework that
looks at its results without `pre`; that framework documents the same.  So what `builders_agree`
is made of applies, and what is left is to put the deps back.  `Transition.withDeps` says that a
transition survives more deps.  Only a match has to find a cell at an index, and so the routes
of the other builders ask no more than that the channel is among the raw deps.

The counterpart is `inspected_behind_pair`.  Behind an entry of two cells the channel is entry 2
of the raw list, and cell 2 of the resolved list is the one before it, the code of the
contract.
-/

namespace Opticrum

open Rust Ckb

section Pipeline

variable [ScriptHash]

/-! ## More deps -/

section Deps

variable {codeHash : Byte32} {tx : Transaction} {c : LiveCell} {deps : List ResolvedDep}

/-- Away from the matching of an order, the script asks of the deps only whether they list
the channel. -/
theorem Transition.withDeps {o? : Option Cell} (h : Transition tx c o?)
    (hdeps : tx.cellDeps ⊆ deps) (hroute : o? = none ∨ ∃ a d, IsMatch c.toCell a d) :
    Transition { tx with cellDeps := deps } c o? := by
  cases h with
  | orderCancel old signed => exact .orderCancel old signed
  | orderMatch old =>
      rcases hroute with hnone | ⟨a, d, hmatch⟩
      · cases hnone
      · exact absurd old hmatch.not_isOrder
  | sellerExtract old new xudt rate signed unsigned listed due alive exact clock =>
      obtain ⟨dep, hdep, hat⟩ := listed
      have hmore : ChannelListed { tx with cellDeps := deps } _ :=
        ⟨dep, List.map_subset _ hdeps hdep, hat⟩
      exact .sellerExtract old new xudt rate signed unsigned hmore
        ⟨due.isTip, due.creation, due.fits⟩ alive exact clock
  | buyerUpdate old new xudt rate unsigned signed clock =>
      exact .buyerUpdate old new xudt rate unsigned signed clock
  | matchDestroy old signed due exhausted =>
      exact .matchDestroy old signed ⟨due.isTip, due.creation, due.fits⟩ exhausted

/-- Deps may be put in front of those of an accepted transaction when it does not match an
order.  All other verifiers ask no more of the deps than that the channel is among the raw ones,
so their positions do not matter. -/
theorem AcceptedBy.withDeps (h : AcceptedBy codeHash tx) (hdeps : tx.cellDeps ⊆ deps)
    (hroute : opticrumOutput? codeHash tx = none ∨
      ∀ c ∈ opticrumInputs codeHash tx, ∃ a d, IsMatch c.toCell a d) :
    AcceptedBy codeHash { tx with cellDeps := deps } := by
  intro c hc
  have hin : c ∈ opticrumInputs codeHash tx := hc
  obtain ⟨head, rest, hgroup, hlock, hhead⟩ := groupInputs_of_mem hin
  have hcode := codeHash_of_isOpticrumLock (mem_opticrumInputs.mp hhead).2
  have haccepts := h c hin
  rw [← hlock] at haccepts ⊢
  obtain ⟨hfits, htransition⟩ := (accepts_iff hgroup).mp haccepts
  have hgroup' : ({ tx with cellDeps := deps } : Transaction).groupInputs head.lock =
      head :: rest := hgroup
  refine (accepts_iff hgroup').mpr ⟨hfits, htransition.withDeps hdeps ?_⟩
  rw [hcode]
  exact hroute.imp_right fun hmatches => hmatches head hhead

end Deps

/-! ## Behind deps -/

/-- `Passes`, from a skeleton that has deps already. -/
def PassesBehind (pre : List ResolvedDep) (rpc : RPC)
    (runBasic : BasicOperation → TransactionSkeleton → Outcome String TransactionSkeleton)
    (avoid : List Byte32) (builder : Outcome Empty Instruction) (c : LiveCell)
    (result : Option Cell → Prop) : Prop :=
  ∃ instruction, builder = .ok instruction ∧
    ∀ sk tx, runInstruction rpc runBasic instruction (.behind .new pre) = .ok sk →
      Completes (rpc.codeHash opticrumContractName) avoid sk.toTransaction tx →
        opticrumInputs (rpc.codeHash opticrumContractName) tx = [c] ∧
          AcceptedBy (rpc.codeHash opticrumContractName) tx ∧
          result (opticrumOutput? (rpc.codeHash opticrumContractName) tx)

section Behind

variable {rpc : RPC}
  {runBasic : BasicOperation → TransactionSkeleton → Outcome String TransactionSkeleton}
  {pre : List ResolvedDep} {avoid : List Byte32} {builder : Outcome Empty Instruction}
  {result : Option Cell → Prop} {sk : TransactionSkeleton} {tx : Transaction} {c : LiveCell}

/-- A completed draft behind deps is one without them, with the deps put back. -/
theorem Completes.of_behind {codeHash : Byte32}
    (h : Completes codeHash avoid (sk.behind pre).toTransaction tx) :
    ∃ more, tx.cellDeps = pre ++ (sk.cellDeps ++ more) ∧
      Completes codeHash avoid sk.toTransaction { tx with cellDeps := sk.cellDeps ++ more } := by
  obtain ⟨more, hdeps⟩ := h.cellDeps
  refine ⟨more, ?_, h.inputs, h.outputs, ⟨more, rfl⟩, h.headerDeps⟩
  rw [hdeps, TransactionSkeleton.behind, List.append_assoc]

/-- **Behind deps.**  What passes in the framework run behind the deps passes behind them,
unless an order is matched: what is spent is a match, or nothing is left of it. -/
theorem Passes.behind (h : Passes rpc (behindDeps pre runBasic) avoid builder c result)
    (hkeeps : KeepsDeps runBasic)
    (hnames : ∀ instruction, builder = .ok instruction →
      ∀ operation ∈ instruction, operation.namesDep = false)
    (hroute : (∀ o?, result o? → o? = none) ∨ ∃ a d, IsMatch c.toCell a d) :
    PassesBehind pre rpc runBasic avoid builder c result := by
  obtain ⟨instruction, hbuilder, hpasses⟩ := h
  refine ⟨instruction, hbuilder, fun sk tx hrun hcompletes => ?_⟩
  obtain ⟨sk₁, hrun₁, rfl⟩ := runInstruction_behind hkeeps (hnames instruction hbuilder) hrun
  obtain ⟨more, hdeps, hcompletes₁⟩ := hcompletes.of_behind
  obtain ⟨hsole, haccepted, hresult⟩ := hpasses sk₁ _ hrun₁ hcompletes₁
  refine ⟨hsole, ?_, hresult⟩
  have hsubset : sk₁.cellDeps ++ more ⊆ tx.cellDeps :=
    hdeps ▸ List.subset_append_right pre (sk₁.cellDeps ++ more)
  refine haccepted.withDeps hsubset ?_
  refine hroute.imp (fun hnone => hnone _ hresult) fun hmatch c' hc' => ?_
  obtain rfl : c' = c := List.mem_singleton.mp (hsole ▸ hc')
  exact hmatch

/-! ### The builders -/

variable {info : MatchInfo} {tip : U64}

/-- An update behind deps. -/
theorem LiveMatch.update_behind (h : LiveMatch rpc c info) (doc : Documented rpc runBasic)
    (hkeeps : KeepsDeps runBasic) (hpre : ∀ dep ∈ pre, dep.dep.depType = .depGroup)
    {buyer : Address} {newXudtAmount : U128} {delta : I64}
    (hbuyer : ActsFor (rpc.codeHash opticrumContractName) buyer
      info.matchArgs.orderArgs.buyerLockHash)
    (hdelta : delta ≠ BitVec.intMin 64)
    (hlow : (c.occupied : ℤ) ≤ c.capacity.toNat + delta.toInt)
    (hhigh : (c.capacity.toNat : ℤ) + delta.toInt < 2 ^ 64) :
    PassesBehind pre rpc runBasic [info.matchArgs.sellerLockHash]
      (updateMatchBuyer buyer info newXudtAmount delta) c
      (fun o? => ∃ o, o? = some o ∧ (o.unoccupied : ℤ) = c.unoccupied + delta.toInt) :=
  (h.update_passes (doc.behindDeps hpre) hbuyer hdelta hlow hhigh).behind hkeeps
    (fun _ => namesDep_updateMatchBuyer) (.inr ⟨_, _, h.infoOf.decodes⟩)

/-- An extraction behind deps, of a match that is not exhausted. -/
theorem LiveMatch.extract_behind (h : LiveMatch rpc c info) (doc : Documented rpc runBasic)
    (hkeeps : KeepsDeps runBasic) (hpre : ∀ dep ∈ pre, dep.dep.depType = .depGroup)
    {seller : Address}
    (hseller : ActsFor (rpc.codeHash opticrumContractName) seller info.matchArgs.sellerLockHash)
    (halive : (info.isExhausted tip : Outcome Empty Bool) = .ok false) :
    PassesBehind pre rpc runBasic [info.matchArgs.orderArgs.buyerLockHash]
      (extractRent seller info tip) c
      (fun o? => ∃ o rent, o? = some o ∧
        (info.extractionAmount tip : Outcome Empty U64) = .ok rent ∧
          o.unoccupied + rent.toNat = c.unoccupied) :=
  (h.extract_passes (doc.behindDeps hpre) hseller halive).behind hkeeps
    (fun _ => namesDep_extractRent) (.inr ⟨_, _, h.infoOf.decodes⟩)

/-- What leaves no match behind takes any deps. -/
theorem Passes.behind_of_none {instruction : Instruction}
    (h : Passes rpc (behindDeps pre runBasic) avoid builder c (· = none))
    (hkeeps : KeepsDeps runBasic) (hbuilder : builder = .ok instruction)
    (hnames : ∀ operation ∈ instruction, operation.namesDep = false) :
    PassesBehind pre rpc runBasic avoid builder c (· = none) := by
  refine h.behind hkeeps (fun instruction' hbuilder' => ?_) (.inl fun _ hnone => hnone)
  obtain rfl := Except.ok.inj (hbuilder.symm.trans hbuilder')
  exact hnames

end Behind

/-- What it means that the builders agree with the verifier behind deps: one field for each
builder but `match_order`.  The conditions and the results are those of `LifecycleAgrees`. -/
structure PreparedAgrees (pre : List ResolvedDep) (rpc : RPC)
    (runBasic : BasicOperation → TransactionSkeleton → Outcome String TransactionSkeleton) :
    Prop where
  cancelOrder : ∀ {c info buyer}, LiveOrder rpc c info →
    ActsFor (rpc.codeHash opticrumContractName) buyer info.orderArgs.buyerLockHash →
      PassesBehind pre rpc runBasic [] (.ok (cancelOrder buyer info)) c (· = none)
  /-- The rent leaves the pool, or the match is swept. -/
  extractRent : ∀ {c info seller tip}, LiveMatch rpc c info →
    ActsFor (rpc.codeHash opticrumContractName) seller info.matchArgs.sellerLockHash →
    rentAt c info.matchData tip.toNat < 2 ^ 64 →
      ((info.isExhausted tip : Outcome Empty Bool) = .ok true ∧
        PassesBehind pre rpc runBasic [] (extractRent seller info tip) c (· = none)) ∨
      ((info.isExhausted tip : Outcome Empty Bool) = .ok false ∧
        PassesBehind pre rpc runBasic [info.matchArgs.orderArgs.buyerLockHash]
          (extractRent seller info tip) c
          (fun o? => ∃ o rent, o? = some o ∧
            (info.extractionAmount tip : Outcome Empty U64) = .ok rent ∧
              o.unoccupied + rent.toNat = c.unoccupied))
  destroyMatch : ∀ {c info seller tip}, LiveMatch rpc c info →
    ActsFor (rpc.codeHash opticrumContractName) seller info.matchArgs.sellerLockHash →
    (info.isExhausted tip : Outcome Empty Bool) = .ok true →
      PassesBehind pre rpc runBasic [] (.ok (destroyMatch seller info tip)) c (· = none)
  /-- The pool changes by the amount asked for. -/
  updateMatchBuyer : ∀ {c info buyer newXudtAmount} {delta : I64}, LiveMatch rpc c info →
    ActsFor (rpc.codeHash opticrumContractName) buyer info.matchArgs.orderArgs.buyerLockHash →
    delta ≠ BitVec.intMin 64 → (c.occupied : ℤ) ≤ c.capacity.toNat + delta.toInt →
    (c.capacity.toNat : ℤ) + delta.toInt < 2 ^ 64 →
      PassesBehind pre rpc runBasic [info.matchArgs.sellerLockHash]
        (updateMatchBuyer buyer info newXudtAmount delta) c
        (fun o? => ∃ o, o? = some o ∧ (o.unoccupied : ℤ) = c.unoccupied + delta.toInt)

variable {rpc : RPC}
  {runBasic : BasicOperation → TransactionSkeleton → Outcome String TransactionSkeleton}
  {pre : List ResolvedDep}

/-- **Prepared builders.** With a framework that does what it documents and takes no dep away,
what the builders list passes behind any dep groups.

None of them names a dep by its position, so the operations do on the longer list what they do
on an empty one, and the contract asks no more of the deps than what is among them.
`match_order` is the exception. -/
theorem prepared_builders_agree (doc : Documented rpc runBasic) (hkeeps : KeepsDeps runBasic)
    (hpre : ∀ dep ∈ pre, dep.dep.depType = .depGroup) : PreparedAgrees pre rpc runBasic where
  cancelOrder horder hbuyer :=
    (horder.cancel_passes (doc.behindDeps hpre) hbuyer).behind_of_none hkeeps rfl
      namesDep_cancelOrder
  extractRent := by
    intro c info seller tip hmatch hseller hfits
    have htest : (info.isExhausted tip : Outcome Empty Bool) = .ok _ :=
      hmatch.infoOf.isExhausted_of_lt hfits
    cases hvalue : decide (valueOf c.toCell ≤ rentAt c info.matchData tip.toNat) with
    | true =>
        rw [hvalue] at htest
        have hbuilder : (extractRent seller info tip : Outcome Empty _) =
            .ok (destroyMatch seller info tip) := by
          simp only [extractRent, htest, Outcome.ok_bind, if_true]
        have hpasses := hmatch.extract_passes_of_exhausted (doc.behindDeps hpre) hseller htest
        exact .inl ⟨htest, hpasses.behind_of_none hkeeps hbuilder namesDep_destroyMatch⟩
    | false =>
        rw [hvalue] at htest
        exact .inr ⟨htest, hmatch.extract_behind doc hkeeps hpre hseller htest⟩
  destroyMatch hmatch hseller hexhausted :=
    (hmatch.destroy_passes (doc.behindDeps hpre) hseller hexhausted).behind_of_none hkeeps rfl
      namesDep_destroyMatch
  updateMatchBuyer hmatch hbuyer hdelta hlow hhigh :=
    hmatch.update_behind doc hkeeps hpre hbuyer hdelta hlow hhigh

/-! ## Matching first -/

section Matching

variable {seller : Address} {prepare balance : Stage} {info : OrderInfo} {matchArgs : MatchArgs}
  {c channel : LiveCell}

/-- A later dep completes a draft as well. -/
theorem Completes.of_dep {codeHash : Byte32} {avoid : List Byte32} {draft tx : Transaction}
    {dep : ResolvedDep}
    (h : Completes codeHash avoid { draft with cellDeps := draft.cellDeps ++ [dep] } tx) :
    Completes codeHash avoid draft tx := by
  obtain ⟨more, hdeps⟩ := h.cellDeps
  exact ⟨h.inputs, h.outputs, ⟨dep :: more, by rw [hdeps, List.append_assoc]; rfl⟩, h.headerDeps⟩

omit [ScriptHash] in
/-- Behind a group of two, the contract's code sits where the channel is looked for. -/
theorem inspected_behind_pair {group : ResolvedDep} {contract : LiveCell}
    {deps more : List ResolvedDep} {tx : Transaction} {o : OutPoint}
    (hgroup : group.cells.length = 2) (hpoint : group.dep.outPoint ≠ o.packed)
    (hcontract : contract.outPoint ≠ o.packed) (hchannel : channel.outPoint = o.packed)
    (hdeps : Adds [.code contract] (.code channel) deps)
    (htx : tx.cellDeps = [group] ++ (deps ++ more)) :
    tx.rawCellDeps.findIdx? (fun dep => o.isAt dep.outPoint) = some 2 ∧
      tx.resolvedCellDeps[2]? = some contract := by
  have hdeps' : deps = [.code contract, .code channel] := by
    rcases hdeps with rfl | ⟨hmem, -⟩
    · rfl
    · have hcells := congrArg ResolvedDep.cells (List.mem_singleton.mp hmem)
      obtain rfl : channel = contract := List.singleton_inj.mp hcells
      exact absurd hchannel hcontract
  obtain ⟨x, y, hpair⟩ := List.length_eq_two.mp hgroup
  have hnot : ∀ p : Ckb.OutPoint, p ≠ o.packed → o.isAt p = false :=
    fun p hp => Bool.eq_false_iff.mpr fun hat => hp (OutPoint.isAt_iff.mp hat)
  have hraw : tx.rawCellDeps =
      [group.dep, ⟨contract.outPoint, .code⟩, ⟨channel.outPoint, .code⟩] ++
        more.map ResolvedDep.dep := by
    rw [Transaction.rawCellDeps, htx, hdeps']
    rfl
  constructor
  · rw [hraw]
    simp [List.findIdx?_cons, hnot _ hpoint, hnot _ hcontract, OutPoint.isAt_iff.mpr hchannel]
  · rw [Transaction.resolvedCellDeps, htx, hdeps']
    simp [hpair, ResolvedDep.code]

/-- Matched before the dep is added, an order for capacity is spent and accepted, whatever
the dep names. -/
theorem LiveOrder.matching_first (h : LiveOrder rpc c info) (doc : Documented rpc runBasic)
    (stages : DocumentedStages seller prepare balance)
    (hargs : info.orderArgs = matchArgs.orderArgs)
    (hseller : ActsFor (rpc.codeHash opticrumContractName) seller matchArgs.sellerLockHash)
    (hchannel : MeetsOrder rpc c info matchArgs.channelOutpoint channel)
    (hcapacity : c.capacity.toNat + orderToMatchCapacityReserve.toNat < 2 ^ 64)
    {sk : TransactionSkeleton}
    (hsk : newSkeleton [runInstruction rpc runBasic (matchOrder seller info matchArgs), prepare,
      balance] = .ok sk) :
    opticrumInputs (rpc.codeHash opticrumContractName) sk.toTransaction = [c] ∧
      AcceptedBy (rpc.codeHash opticrumContractName) sk.toTransaction ∧
      ∃ o, opticrumOutput? (rpc.codeHash opticrumContractName) sk.toTransaction = some o ∧
        o.unoccupied = c.unoccupied := by
  obtain ⟨sk₁, hmatch, sk₂, hprepare, hbalance⟩ := newSkeleton_eq_ok_iff.mp hsk
  obtain ⟨group, -, rfl⟩ := stages.prepare hprepare
  have hcompletes : Completes (rpc.codeHash opticrumContractName) [] sk₁.toTransaction
      sk.toTransaction := (stages.completes hseller List.not_mem_nil hbalance).of_dep
  obtain ⟨instruction, hbuilder, hpasses⟩ := h.match_passes doc hargs hseller hchannel hcapacity
  obtain rfl := Except.ok.inj hbuilder
  exact hpasses sk₁ _ hmatch hcompletes

/-- What is accepted behind a group has matched the order, with the contract and the
channel behind the group. -/
theorem LiveOrder.matching_behind (h : LiveOrder rpc c info) (doc : Documented rpc runBasic)
    (hkeeps : KeepsDeps runBasic) (stages : DocumentedStages seller prepare balance)
    (hseller : ActsFor (rpc.codeHash opticrumContractName) seller matchArgs.sellerLockHash)
    (hlive : rpc.liveCell matchArgs.channelOutpoint.packed = some channel) {group : ResolvedDep}
    (hkind : group.dep.depType = .depGroup) {sk₁ sk : TransactionSkeleton}
    (hmatch : runInstruction rpc runBasic (matchOrder seller info matchArgs)
      (.behind .new [group]) = .ok sk₁) (hbalance : balance sk₁ = .ok sk)
    (haccepted : AcceptedBy (rpc.codeHash opticrumContractName) sk.toTransaction) :
    ∃ contract deps more, rpc.Live contract ∧ Adds [.code contract] (.code channel) deps ∧
      sk.cellDeps = [group] ++ (deps ++ more) ∧
      OrderMatched (rpc.codeHash opticrumContractName) sk.toTransaction c matchArgs := by
  have hpre : ∀ dep ∈ [group], dep.dep.depType = .depGroup := by simpa using hkind
  -- the run behind the group is a run on a new skeleton, the group put back
  obtain ⟨sk₂, hrun, rfl⟩ := runInstruction_behind hkeeps namesDep_matchOrder hmatch
  obtain ⟨contract, deps, headers, party, o, hparty, hcontract, hdeps, -, -, hcopy, hdraft⟩ :=
    (doc.behindDeps hpre).matchOrder_draft h.liveCell hlive h.xudt hrun
  have hbalanced : Completes (rpc.codeHash opticrumContractName) []
      (sk₂.behind [group]).toTransaction sk.toTransaction :=
    stages.completes hseller List.not_mem_nil hbalance
  obtain ⟨more, hcells, hcompletes⟩ := hbalanced.of_behind
  have hlock : isOpticrumLock (rpc.codeHash opticrumContractName) o.lock = true := by
    rw [hcopy.lock]
    exact isOpticrumLock_opticrumLock _ _
  have hinputs : opticrumInputs (rpc.codeHash opticrumContractName) sk.toTransaction = [c] := by
    rw [hdraft] at hcompletes
    exact hcompletes.sole_of_cons hparty hseller.ordinary h.lock
  have hout : opticrumOutput? (rpc.codeHash opticrumContractName) sk.toTransaction = some o := by
    have hfirst := hcompletes.opticrumOutput?_eq
    rw [hdraft] at hfirst
    refine hfirst.trans ?_
    simp [opticrumOutput?, hlock]
  have hnew : IsMatch o matchArgs (MatchData.new 0 info.orderData.shannonsPerBlock) :=
    isMatch_of_toBytes (by rw [hcopy.lock]) hcopy.data
  rw [hdraft] at hcells
  exact ⟨contract, deps, more, hcontract, hdeps, hcells, haccepted, h.lock,
    ⟨[], groupInputs_of_sole hinputs⟩, ⟨_, _, h.infoOf.decodes⟩, o, _, hout, hnew⟩

/-- **Matching goes first.**  Matched before the system lock's dep is added, as the binary
does it, an order for capacity with a channel that meets it is spent and accepted, whatever
the dep is.

Matched after it, with a dep group of two members at an out point other than the channel's,
it is not accepted, unless the contract itself is deployed under a funding lock: that is the
cell the script inspects in place of the channel. -/
theorem match_goes_first (h : LiveOrder rpc c info) (doc : Documented rpc runBasic)
    (hkeeps : KeepsDeps runBasic) (stages : DocumentedStages seller prepare balance)
    (hargs : info.orderArgs = matchArgs.orderArgs)
    (hseller : ActsFor (rpc.codeHash opticrumContractName) seller matchArgs.sellerLockHash)
    (hchannel : MeetsOrder rpc c info matchArgs.channelOutpoint channel)
    (hcapacity : c.capacity.toNat + orderToMatchCapacityReserve.toNat < 2 ^ 64) :
    let matching := runInstruction rpc runBasic (matchOrder seller info matchArgs)
    (∀ sk, newSkeleton [matching, prepare, balance] = .ok sk →
      opticrumInputs (rpc.codeHash opticrumContractName) sk.toTransaction = [c] ∧
        AcceptedBy (rpc.codeHash opticrumContractName) sk.toTransaction ∧
        ∃ o, opticrumOutput? (rpc.codeHash opticrumContractName) sk.toTransaction = some o ∧
          o.unoccupied = c.unoccupied) ∧
    ((∀ {sk sk' group}, prepare sk = .ok sk' → sk'.cellDeps = sk.cellDeps ++ [group] →
        group.cells.length = 2 ∧ group.dep.outPoint ≠ matchArgs.channelOutpoint.packed) →
      ∀ sk, newSkeleton [prepare, matching, balance] = .ok sk →
        AcceptedBy (rpc.codeHash opticrumContractName) sk.toTransaction →
          ∃ contract, sk.cellDeps[1]? = some (.code contract) ∧
            isFiberFundingContract contract.lock.codeHash = true ∧
            contract.lock.hashType = .type) := by
  intro matching
  refine ⟨fun sk hsk => h.matching_first doc stages hargs hseller hchannel hcapacity hsk, ?_⟩
  intro hpair sk hsk haccepted
  obtain ⟨sk₁, hprepare, sk₂, hmatch, hbalance⟩ := newSkeleton_eq_ok_iff.mp hsk
  obtain ⟨group, hkind, rfl⟩ := stages.prepare hprepare
  obtain ⟨htwo, hpoint⟩ := hpair hprepare rfl
  obtain ⟨contract, deps, more, hcontract, hdeps, hcells, hmatched⟩ :=
    h.matching_behind doc hkeeps stages hseller hchannel.live hkind hmatch hbalance haccepted
  have hsecond : sk.cellDeps[1]? = some (.code contract) := by
    have hfirst : deps[0]? = some (.code contract) := hdeps.getElem?_zero rfl
    rw [hcells]
    cases deps with
    | nil => cases hfirst
    | cons dep deps => exact hfirst
  refine ⟨contract, hsecond, ?_⟩
  by_cases hsame : contract.outPoint = matchArgs.channelOutpoint.packed
  · -- then the contract is the channel
    rw [RPC.Live, hsame, hchannel.live] at hcontract
    obtain rfl := Option.some.inj hcontract
    exact ⟨hchannel.funding, hchannel.hashType⟩
  · obtain ⟨hlisted, hcell⟩ := inspected_behind_pair htwo hpoint hsame
      (rpc.liveCell_outPoint hchannel.live) hdeps hcells
    obtain ⟨inspected, hinspected, hfunding, htype, -⟩ := hmatched.inspects hlisted
    obtain rfl := Option.some.inj (hcell.symm.trans hinspected)
    exact ⟨hfunding, htype⟩

end Matching

end Pipeline

/-! ## In the market -/

namespace Market

/-- The dep group of the system lock: its code and the data it needs. -/
def systemGroup : ResolvedDep :=
  .depGroup ⟨Vector.replicate 32 0x71, 0⟩
    [partyCell (systemLock []) 0 ⟨Vector.replicate 32 0x71, 1⟩ (headerAt 0),
      partyCell (systemLock []) 0 ⟨Vector.replicate 32 0x71, 3⟩ (headerAt 0)]

/-- The simulated framework passes behind the system group. -/
theorem prepared_framework_agrees : PreparedAgrees [systemGroup] node framework :=
  prepared_builders_agree documented_framework keepsDeps_simulate (by simp [systemGroup,
    ResolvedDep.depGroup])

/-- An instruction that adds the group, and one that finds the transaction balanced. -/
def addSystemGroup : Stage := fun sk => .ok { sk with cellDeps := sk.cellDeps ++ [systemGroup] }

/-- A balancing that finds nothing to add. -/
def alreadyBalanced : Stage := fun sk => .ok sk

/-- Both stages do what is documented. -/
theorem documentedStages_market (address : Address) :
    DocumentedStages address addSystemGroup alreadyBalanced where
  prepare := by
    intro sk sk' h
    obtain rfl := Except.ok.inj h
    exact ⟨systemGroup, rfl, rfl⟩
  balance := by
    intro sk sk' h
    obtain rfl := Except.ok.inj h
    exact ⟨[], [], [], [], List.forall_mem_nil _, List.forall_mem_nil _, by simp⟩

theorem number_headerAt (n : U64) : (headerAt n.toNat).number = n :=
  BitVec.eq_of_toNat_eq (headerAt_number n.isLt)

/-- A node that knows the order of the market. -/
def orderNode : RPC :=
  .ofCells [contractCell, channelCell, sellerCell, (order 0).toLiveCell]
    (fun n => headerAt n.toNat) codeHash number_headerAt (by
      simp only [List.forall_mem_cons]
      exact ⟨⟨fund_funded (by decide), rfl⟩, ⟨by decide, rfl⟩, ⟨fund_funded (by decide), rfl⟩,
        ⟨orderOutput_funded (by decide), rfl⟩, List.forall_mem_nil _⟩)

/-- What the reader makes of the order. -/
def orderInfo : OrderInfo where
  orderArgs := orderArgs
  orderData := ⟨0, 100000000000, 3⟩
  xudt := none
  ckbCapacity := 100000
  orderOutpoint := ⟨Vector.replicate 32 0x0d, 0⟩
  fiberAddress := none

/-- The order of the market is live, and has been read. -/
theorem liveOrder_market : LiveOrder orderNode (order 0).toLiveCell orderInfo where
  live := by rfl
  lock := isOpticrumLock_orderCell
  plain := rfl
  parsed := by
    have hpool : (order 0).unoccupied = 100000 := orderCell_unoccupied (by decide)
    refine parseOrderCell_eq_ok_iff.mpr ⟨⟨isOrder_orderOutput, orderCell_fits, ?_, rfl, rfl⟩, rfl⟩
    rw [hpool]
    rfl
  amount := rfl

theorem meetsOrder_market :
    MeetsOrder orderNode (order 0).toLiveCell orderInfo matchArgs.channelOutpoint channelCell where
  live := by rfl
  funding := by decide
  hashType := rfl
  capacity := by decide
  younger := by decide

/-- The framework of the seller. -/
def orderedFramework (operation : BasicOperation) (sk : TransactionSkeleton) :
    Outcome String TransactionSkeleton :=
  simulate orderNode contractCell [sellerCell] operation sk

/-- The framework on that node is a simulated one too. -/
theorem documented_orderedFramework : Documented orderNode orderedFramework :=
  documented_simulate (show orderNode.Live contractCell by rfl)

/-- The seller's matching of the order. -/
def matching : Stage :=
  runInstruction orderNode orderedFramework (matchOrder ⟨sellerLock⟩ orderInfo matchArgs)

/-- The order is matched first, and accepted.  Behind the system group the same builder lists a
transaction that the contract does not accept. -/
theorem market_matches_first :
    (∃ sk, newSkeleton [matching, addSystemGroup, alreadyBalanced] = .ok sk ∧
      opticrumInputs codeHash sk.toTransaction = [(order 0).toLiveCell] ∧
      AcceptedBy codeHash sk.toTransaction) ∧
    ∃ sk, newSkeleton [addSystemGroup, matching, alreadyBalanced] = .ok sk ∧
      ¬ AcceptedBy codeHash sk.toTransaction := by
  have hboth := match_goes_first liveOrder_market documented_orderedFramework
    keepsDeps_simulate (documentedStages_market ⟨sellerLock⟩)
    (show orderInfo.orderArgs = matchArgs.orderArgs from rfl) actsFor_seller meetsOrder_market
    (by decide)
  obtain ⟨hfirst, hlast⟩ := hboth
  obtain ⟨hsole, haccepted, -⟩ := hfirst _ rfl
  refine ⟨⟨_, rfl, hsole, haccepted⟩, _, rfl, fun haccepted' => ?_⟩
  obtain ⟨contract, hcontract, hfunding, -⟩ := hlast (by
    intro sk sk' group hprepare hdeps
    obtain rfl := Except.ok.inj hprepare
    obtain rfl := List.singleton_inj.mp (List.append_cancel_left hdeps)
    exact ⟨rfl, by decide⟩) _ rfl haccepted'
  have hcells : ([contractCell] : List LiveCell) = [contract] :=
    congrArg ResolvedDep.cells (Option.some.inj hcontract)
  rw [← List.singleton_inj.mp hcells] at hfunding
  exact absurd hfunding (by decide)

end Market

end Opticrum
