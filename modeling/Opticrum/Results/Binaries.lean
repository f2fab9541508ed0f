import Opticrum.Calculator.Binaries
import Opticrum.Results.Authorization
import Opticrum.Results.ChannelSize
import Opticrum.Results.Life
import Opticrum.Results.Pipeline
import Opticrum.Results.Scan

/-!
# What the binaries send

From the indexer's answer to the transaction: a binary scans, picks a cell by its index,
checks what it checks, and runs a pipeline.  Whatever the indexer serves and whatever
index is asked for, the transaction spends the cell that was picked and no other cell of
the contract.  Whether it is accepted depends on what the binary does not check.

## One binary at a time

Each result composes the same four links:

* the scan lists exactly what the contract recognises, `scans_exactly` in its parts;
* the index picks one cell of that list, with the info the reader has made of it;
* the builder's instruction passes behind the dep of the system lock, or in front of it;
* what balancing appends is under the lock of the address.

`Host.Documented.picked_match`, `PassesBehind.prepared` and `DocumentedStages.prepared` are the
links, and what a binary checks by itself is read off its definition.

## What they do not check

`extract_liquidity_rent` does not look at whose match it has picked, so the contract decides.
`match_order` does not look at the channel, so it is accepted exactly when the channel meets the
order.  `topup_rent` and `decline_rent` compare the buyer's lock hash before they build
anything.
-/

namespace Opticrum

open Rust Ckb

section Binaries

variable [ScriptHash]

/-! ## What is picked -/

section Picked

variable {codeHash : Byte32} {host : Host} {cells : List LiveCell}

/-- The matches among the cells, in the order they are served. -/
def recognisedMatches (codeHash : Byte32) (cells : List LiveCell) : List LiveCell :=
  (cells.filter fun c => isOpticrumLock codeHash c.lock).filter fun c => isMatchCell c.toCell

/-- The orders among the cells. -/
def recognisedOrders (codeHash : Byte32) (cells : List LiveCell) : List LiveCell :=
  (cells.filter fun c => isOpticrumLock codeHash c.lock).filter fun c => isOrderCell c.toCell

omit [ScriptHash] in
/-- What is recognised as a match is among the cells served, and under the contract's lock. -/
theorem mem_of_recognisedMatches {c : LiveCell} (h : c ∈ recognisedMatches codeHash cells) :
    c ∈ cells ∧ isOpticrumLock codeHash c.lock = true :=
  List.mem_filter.mp (List.mem_filter.mp h).1

omit [ScriptHash] in
theorem mem_of_recognisedOrders {c : LiveCell} (h : c ∈ recognisedOrders codeHash cells) :
    c ∈ cells ∧ isOpticrumLock codeHash c.lock = true :=
  List.mem_filter.mp (List.mem_filter.mp h).1

/-- A live cell holds what it occupies, so that this fits in 64 bits and the reader does not
stumble over it. -/
theorem Host.Documented.fits (doc : host.Documented cells) {c : LiveCell} (hc : c ∈ cells) :
    c.occupied < 2 ^ 64 :=
  lt_of_le_of_lt (host.rpc.liveCell_funded (doc.live c hc)) c.capacity.isLt

omit [ScriptHash] in
/-- An entry of a scan is the information of the cell with its index. -/
theorem ListsExactly.picked {α : Type} {recognised : LiveCell → Bool} {infoOf : LiveCell → α → Prop}
    {pubkeyOf : α → CompressedPubkey} {scan : Option CompressedPubkey → Outcome String (List α)}
    (h : ListsExactly cells recognised infoOf pubkeyOf scan) {infos : List α}
    (hscan : scan none = .ok infos) {i : ℕ} {info : α} (hi : infos[i]? = some info) :
    ∃ c, (cells.filter recognised)[i]? = some c ∧ infoOf c info := by
  obtain ⟨infos', hscan', hlisted, -⟩ := h
  obtain rfl : infos' = infos := Except.ok.inj (hscan'.symm.trans hscan)
  exact exists_of_forall₂_getElem? hlisted hi

/-- What the binary picks by its index is a match at that index among those that are recognised,
and has been read correctly.  The order of the scan is the indexer's. -/
theorem Host.Documented.picked_match (doc : host.Documented cells) {infos : List MatchInfo}
    (hscan : scanMatches host.indexer none = .ok infos) {i : ℕ} {info : MatchInfo}
    (hi : infos[i]? = some info) :
    ∃ c, (recognisedMatches host.codeHash cells)[i]? = some c ∧ MatchInfoOf c info := by
  obtain ⟨typeId, hnetwork, hcode⟩ := doc.deployed
  have hlists : ListsExactly (cells.filter fun c => isOpticrumLock (opticrumCodeHash typeId) c.lock)
      (fun c => isMatchCell c.toCell) MatchInfoOf (fun info => info.matchArgs.orderArgs.fiberPubkey)
      (scanMatches host.indexer) := by
    refine doc.serves.listsExactly hnetwork yields_parseMatchCell
      (fun c hc => parseMatchCell_of_isMatchCell (doc.fits hc))
      (fun c => parseMatchCell_of_not_isMatchCell) ?_
    intro c info hinfo pk
    exact (parseMatchCell_eq_ok_iff.mp (toOption_eq_some_iff.mp hinfo)).decodes.startsWith_iff
  rw [recognisedMatches, hcode]
  exact hlists.picked hscan hi

/-- What the binary picks by its index is an order likewise. -/
theorem Host.Documented.picked_order (doc : host.Documented cells) {infos : List OrderInfo}
    (hscan : scanOrders host.indexer host.codec none = .ok infos) {i : ℕ} {info : OrderInfo}
    (hi : infos[i]? = some info) :
    ∃ c, (recognisedOrders host.codeHash cells)[i]? = some c ∧ OrderInfoOf c info := by
  obtain ⟨typeId, hnetwork, hcode⟩ := doc.deployed
  have hlists : ListsExactly (cells.filter fun c => isOpticrumLock (opticrumCodeHash typeId) c.lock)
      (fun c => isOrderCell c.toCell) OrderInfoOf (fun info => info.orderArgs.fiberPubkey)
      (scanOrders host.indexer host.codec) := by
    refine (doc.serves.listsExactly hnetwork yields_parseOrderCell
      (fun c hc => parseOrderCell_of_isOrderCell (doc.fits hc))
      (fun c => parseOrderCell_of_not_isOrderCell) ?_).map ?_ ?_
    · intro c info hinfo pk
      exact (parseOrderCell_eq_ok_iff.mp (toOption_eq_some_iff.mp hinfo)).1.decodes.startsWith_iff
    · intro c info hinfo
      exact ⟨hinfo.decodes, hinfo.fits, hinfo.capacity, hinfo.xudt, hinfo.outpoint⟩
    · intro info
      rfl
  rw [recognisedOrders, hcode]
  exact hlists.picked hscan hi

end Picked

/-! ## The pipeline around an instruction -/

section Prepared

variable {rpc : RPC}
  {runBasic : BasicOperation → TransactionSkeleton → Outcome String TransactionSkeleton}
  {prepare balance : Stage} {address : Address} {codeHash lockHash : Byte32}
  {avoid : List Byte32} {instruction : Instruction} {sk : TransactionSkeleton}

/-- Prepared, an instruction runs behind a dep group, and balancing completes its draft. -/
theorem DocumentedStages.prepared (stages : DocumentedStages address prepare balance)
    (hacts : ActsFor codeHash address lockHash) (havoid : lockHash ∉ avoid)
    (h : newSkeleton [prepare, runInstruction rpc runBasic instruction, balance] = .ok sk) :
    ∃ group sk₁, group.dep.depType = .depGroup ∧
      runInstruction rpc runBasic instruction (.behind .new [group]) = .ok sk₁ ∧
      Completes codeHash avoid sk₁.toTransaction sk.toTransaction := by
  obtain ⟨sk₀, hprepare, sk₁, hrun, hbalance⟩ := newSkeleton_eq_ok_iff.mp h
  obtain ⟨group, hkind, rfl⟩ := stages.prepare hprepare
  exact ⟨group, sk₁, hkind, hrun, stages.completes hacts havoid hbalance⟩

/-- What passes behind any group passes prepared. -/
theorem PassesBehind.prepared {builder : Outcome Empty Instruction} {c : LiveCell}
    {result : Option Cell → Prop}
    (hpasses : ∀ group : ResolvedDep, group.dep.depType = .depGroup →
      PassesBehind [group] rpc runBasic avoid builder c result)
    (stages : DocumentedStages address prepare balance)
    (hacts : ActsFor (rpc.codeHash opticrumContractName) address lockHash)
    (havoid : lockHash ∉ avoid) (hbuilder : builder = .ok instruction)
    (h : newSkeleton [prepare, runInstruction rpc runBasic instruction, balance] = .ok sk) :
    opticrumInputs (rpc.codeHash opticrumContractName) sk.toTransaction = [c] ∧
      AcceptedBy (rpc.codeHash opticrumContractName) sk.toTransaction ∧
      result (opticrumOutput? (rpc.codeHash opticrumContractName) sk.toTransaction) := by
  obtain ⟨group, sk₁, hkind, hrun, hcompletes⟩ := stages.prepared hacts havoid h
  obtain ⟨instruction', hbuilder', hruns⟩ := hpasses group hkind
  obtain rfl := Except.ok.inj (hbuilder'.symm.trans hbuilder)
  exact hruns sk₁ _ hrun hcompletes

end Prepared

/-! ## The buyer's binaries -/

section Update

variable {rpc : RPC}
  {runBasic : BasicOperation → TransactionSkeleton → Outcome String TransactionSkeleton}
  {c : LiveCell} {info : MatchInfo} {buyer : Address} {delta : I64}

omit [ScriptHash] in
/-- A copy that is given the amount the match has keeps its tokens. -/
theorem MatchInfoOf.copy_current (h : MatchInfoOf c info) {adjust : CapacityAdjustment} {o : Cell}
    (hcopy : CopyOf c.toCell adjust c.lock
      (MatchData.toBytes { info.matchData with xudtAmount := currentXudt info }).toList o) :
    IsMatch o info.matchArgs { info.matchData with xudtAmount := currentXudt info } ∧
      xudtOf c.toCell = xudtOf o := by
  have hnew : IsMatch o info.matchArgs { info.matchData with xudtAmount := currentXudt info } :=
    isMatch_of_toBytes (by rw [hcopy.lock, h.decodes.args_eq]) hcopy.data
  refine ⟨hnew, ?_⟩
  rw [h.decodes.xudtOf_eq, hnew.xudtOf_eq, hcopy.type_, currentXudt, h.xudt]
  cases c.type_ with
  | none => rfl
  | some s => rfl

/-- An update that keeps the amount passes, whether the match holds tokens or not. -/
theorem MatchInfoOf.update_passes (h : MatchInfoOf c info) (hlive : rpc.Live c)
    (hlock : isOpticrumLock (rpc.codeHash opticrumContractName) c.lock = true)
    (hcanonical : c.data.length = matchDataLen)
    (hapart : PartiesApart (rpc.codeHash opticrumContractName) info.matchArgs)
    (doc : Documented rpc runBasic)
    (hbuyer : ActsFor (rpc.codeHash opticrumContractName) buyer
      info.matchArgs.orderArgs.buyerLockHash)
    (hdelta : delta ≠ BitVec.intMin 64)
    (hlow : (c.occupied : ℤ) ≤ c.capacity.toNat + delta.toInt)
    (hhigh : (c.capacity.toNat : ℤ) + delta.toInt < 2 ^ 64) :
    Passes rpc runBasic [info.matchArgs.sellerLockHash]
      (updateMatchBuyer buyer info (currentXudt info) delta) c
      (fun o? => ∃ o, o? = some o ∧ (o.unoccupied : ℤ) = c.unoccupied + delta.toInt ∧
        xudtOf o = xudtOf c.toCell) := by
  obtain ⟨adjust, hadjust⟩ : ∃ adjust, (adjustBy delta : Outcome Empty _) = .ok adjust :=
    exists_adjustBy hdelta
  obtain ⟨operations, hops⟩ : ∃ operations,
      (updateMatchBuyer buyer info (currentXudt info) delta : Outcome Empty _) =
        .ok operations := by
    rw [updateMatchBuyer, hadjust]
    exact ⟨_, rfl⟩
  have hpoint : rpc.liveCell info.matchOutpoint.packed = some c := by
    rw [h.outpoint, OutPoint.packed_unpacked]
    exact hlive
  refine ⟨operations, hops, fun sk tx hrun hcompletes => ?_⟩
  obtain ⟨contract, party, adjust', o, hparty, hadjust', hcopy, hdraft⟩ :=
    doc.updateMatchBuyer_draft hpoint hops hrun
  rw [hdraft] at hcompletes
  obtain ⟨hnew, hxudt⟩ := h.copy_current hcopy
  have hoccupied : o.occupied = c.occupied := occupied_congr hcopy.lock hcopy.type_ (by
    rw [hcopy.data, hcanonical, Vector.length_toList])
  -- the buyer signs, and nobody else
  obtain ⟨p, hp, hhash⟩ := hparty.exists_hash hbuyer
  have hsigned : Signed tx info.matchArgs.orderArgs.buyerLockHash :=
    hcompletes.signed (List.mem_cons_of_mem _ hp) hhash
  have hunsigned : ¬ Signed tx info.matchArgs.sellerLockHash := by
    refine hcompletes.not_signed List.mem_cons_self (List.forall_mem_cons.mpr ⟨?_, ?_⟩)
    · rw [h.decodes.lock_eq hlock]
      exact hapart.notSeller
    · intro q hq
      rw [hparty.lock q hq, hbuyer.hash]
      exact hapart.parties
  have hpool : (o.unoccupied : ℤ) = c.unoccupied + delta.toInt := by
    have hcapacity := toInt_of_adjustBy hadjust' hcopy.capacity (by omega) hhigh
    have hfunded := rpc.liveCell_funded hpoint
    rw [Cell.unoccupied, Cell.unoccupied, hoccupied]
    omega
  have hout : opticrumOutput? (rpc.codeHash opticrumContractName)
      ⟨c :: party, [o], [.code contract], []⟩ = some o := by
    simp [opticrumOutput?, hcopy.lock, hlock]
  have hsole := hcompletes.sole_of_cons hparty hbuyer.ordinary hlock
  refine ⟨hsole, hcompletes.accepted hsole h.fits ?_ ?_, o, ?_, hpool, hxudt.symm⟩
  · intro o' ho'
    obtain rfl := Option.some.inj (hout.symm.trans ho')
    rw [hoccupied]
    exact h.fits
  · rw [hout]
    exact .buyerUpdate h.decodes hnew hxudt rfl hunsigned hsigned rfl
  · rw [hcompletes.opticrumOutput?_eq, hout]

omit [ScriptHash] in
/-- An update spends the match and no other cell of the contract. -/
theorem MatchInfoOf.update_sole {ε : Type} (h : MatchInfoOf c info) (hlive : rpc.Live c)
    (hlock : isOpticrumLock (rpc.codeHash opticrumContractName) c.lock = true)
    (doc : Documented rpc runBasic)
    (hordinary : isOpticrumLock (rpc.codeHash opticrumContractName) buyer.script = false)
    {newXudtAmount : U128} {operations : Instruction} {sk : TransactionSkeleton}
    (hops : (updateMatchBuyer buyer info newXudtAmount delta : Outcome ε _) = .ok operations)
    (hrun : runInstruction rpc runBasic operations .new = .ok sk) :
    opticrumInputs (rpc.codeHash opticrumContractName) sk.toTransaction = [c] := by
  have hpoint : rpc.liveCell info.matchOutpoint.packed = some c := by
    rw [h.outpoint, OutPoint.packed_unpacked]
    exact hlive
  obtain ⟨contract, party, adjust, o, hparty, -, -, hdraft⟩ :=
    doc.updateMatchBuyer_draft hpoint hops hrun
  rw [hdraft]
  simp [opticrumInputs, hlock, hparty.filter_eq_nil hordinary]

/-- And so it does behind a dep group. -/
theorem MatchInfoOf.update_behind (h : MatchInfoOf c info) (hlive : rpc.Live c)
    (hlock : isOpticrumLock (rpc.codeHash opticrumContractName) c.lock = true)
    (hcanonical : c.data.length = matchDataLen)
    (hapart : PartiesApart (rpc.codeHash opticrumContractName) info.matchArgs)
    (doc : Documented rpc runBasic) (hkeeps : KeepsDeps runBasic)
    (hbuyer : ActsFor (rpc.codeHash opticrumContractName) buyer
      info.matchArgs.orderArgs.buyerLockHash)
    (hdelta : delta ≠ BitVec.intMin 64)
    (hlow : (c.occupied : ℤ) ≤ c.capacity.toNat + delta.toInt)
    (hhigh : (c.capacity.toNat : ℤ) + delta.toInt < 2 ^ 64) {group : ResolvedDep}
    (hkind : group.dep.depType = .depGroup) :
    PassesBehind [group] rpc runBasic [info.matchArgs.sellerLockHash]
      (updateMatchBuyer buyer info (currentXudt info) delta) c
      (fun o? => ∃ o, o? = some o ∧ (o.unoccupied : ℤ) = c.unoccupied + delta.toInt ∧
        xudtOf o = xudtOf c.toCell) := by
  have hdoc := doc.behindDeps (List.forall_mem_singleton.mpr hkind)
  exact (h.update_passes hlive hlock hcanonical hapart hdoc hbuyer hdelta hlow hhigh).behind hkeeps
    (fun _ => namesDep_updateMatchBuyer) (.inr ⟨_, _, h.decodes⟩)

/-- **The buyer's binaries.** What `topup_rent` and `decline_rent` build spends the match with
the index they are given, if that match is the buyer's, and no other cell of the contract.  When
its data has 32 bytes and its parties are apart, it is accepted, the pool changes by the amount
asked for, and tokens stay what they are.

A match that is not the buyer's is refused before anything is built; an index without a match
aborts. -/
theorem rent_updated {host : Host} {cells : List LiveCell} (doc : host.Documented cells)
    {buyerLockHash : Byte32} (hbuyer : ActsFor host.codeHash buyer buyerLockHash) {matchIndex : ℕ}
    {sk : TransactionSkeleton}
    (h : host.updateRent buyer buyerLockHash matchIndex delta = .ok sk) :
    ∃ c info, (recognisedMatches host.codeHash cells)[matchIndex]? = some c ∧
      MatchInfoOf c info ∧ info.matchArgs.orderArgs.buyerLockHash = buyerLockHash ∧
      opticrumInputs host.codeHash sk.toTransaction = [c] ∧
      (c.data.length = matchDataLen → PartiesApart host.codeHash info.matchArgs →
        (c.occupied : ℤ) ≤ c.capacity.toNat + delta.toInt →
        (c.capacity.toNat : ℤ) + delta.toInt < 2 ^ 64 →
          AcceptedBy host.codeHash sk.toTransaction ∧
            ∃ o, opticrumOutput? host.codeHash sk.toTransaction = some o ∧
              (o.unoccupied : ℤ) = c.unoccupied + delta.toInt ∧ xudtOf o = xudtOf c.toCell) := by
  obtain ⟨key, -, h₁⟩ := Outcome.bind_eq_ok_iff.mp h
  obtain ⟨infos, hscan, h₂⟩ := Outcome.bind_eq_ok_iff.mp h₁
  obtain ⟨info, hpick, h₃⟩ := Outcome.bind_eq_ok_iff.mp h₂
  obtain ⟨_, howner, h₄⟩ := Outcome.bind_eq_ok_iff.mp h₃
  obtain ⟨operations, hops, hsk⟩ := Outcome.bind_eq_ok_iff.mp h₄
  obtain rfl := Outcome.ensure_eq_ok_iff.mp howner
  obtain ⟨c, hc, hinfo⟩ := doc.picked_match hscan (expect_eq_ok_iff.mp hpick)
  obtain ⟨hserved, hlock⟩ := mem_of_recognisedMatches (List.mem_of_getElem? hc)
  have hlive := doc.live c hserved
  have hframework : Documented host.rpc host.runBasic := doc.framework.toDocumented
  have hstages := doc.signing buyer key
  refine ⟨c, info, hc, hinfo, rfl, ?_, fun hcanonical hapart hlow hhigh => ?_⟩
  -- what is spent does not depend on whether the update is accepted
  · obtain ⟨group, sk₁, hkind, hrun, hcompletes⟩ :=
      hstages.prepared hbuyer List.not_mem_nil hsk
    obtain ⟨sk₂, hrun₂, rfl⟩ :=
      runInstruction_behind doc.keeps (namesDep_updateMatchBuyer hops) hrun
    have hdoc := hframework.behindDeps (List.forall_mem_singleton.mpr hkind)
    have hsole := hinfo.update_sole hlive hlock hdoc hbuyer.ordinary hops hrun₂
    exact hcompletes.opticrumInputs_eq.trans hsole
  · obtain ⟨adjust, hadjust, -⟩ := Outcome.bind_eq_ok_iff.mp hops
    have hdelta : delta ≠ BitVec.intMin 64 := ne_intMin_of_adjustBy hadjust
    exact (PassesBehind.prepared (fun group hkind => hinfo.update_behind hlive hlock hcanonical
      hapart hframework doc.keeps hbuyer hdelta hlow hhigh hkind) hstages hbuyer
      (fun hmem => hapart.parties (List.mem_singleton.mp hmem)) (updateMatchBuyer_of_ok hops)
      hsk).2

end Update

/-! ## The seller's extraction -/

section Extract

variable {rpc : RPC}
  {runBasic : BasicOperation → TransactionSkeleton → Outcome String TransactionSkeleton}
  {c : LiveCell} {info : MatchInfo} {seller : Address} {tip : U64}

/-- Whichever way an extraction goes, it spends the match next to cells of the address. -/
theorem LiveMatch.extract_inputs (h : LiveMatch rpc c info) (doc : Documented rpc runBasic)
    (hordinary : isOpticrumLock (rpc.codeHash opticrumContractName) seller.script = false)
    {operations : Instruction} {sk : TransactionSkeleton}
    (hops : (extractRent seller info tip : Outcome Empty _) = .ok operations)
    (hrun : runInstruction rpc runBasic operations .new = .ok sk) :
    opticrumInputs (rpc.codeHash opticrumContractName) sk.toTransaction = [c] ∧
      ∀ p ∈ sk.inputs, p = c ∨ p.lock = seller.script := by
  obtain ⟨exhausted, htest, hops'⟩ := Outcome.bind_eq_ok_iff.mp hops
  cases exhausted with
  | true =>
      obtain rfl := Except.ok.inj hops'
      obtain ⟨contract, party, tipHeader, headers, o, hparty, -, -, -, -, hdraft⟩ :=
        doc.destroyMatch_draft h.liveCell h.infoOf.block h.xudt hrun
      rw [hdraft]
      constructor
      · simp [opticrumInputs, h.lock, hparty.filter_eq_nil hordinary]
      · intro p hp
        exact (List.mem_cons.mp hp).imp_right (hparty.lock p)
  | false =>
      -- the match is added behind the seller's cells, so it must not be one of them
      have hforeign : c.lock ≠ seller.script := by
        intro heq
        have hlock := h.lock
        rw [heq, hordinary] at hlock
        cases hlock
      obtain ⟨contract, channel, deps, party, rent, tipHeader, headers, o, hparty, -, -, -, -, -, -,
        -, hdraft⟩ := doc.extractRent_draft h.liveCell hforeign h.xudt htest hops hrun
      rw [hdraft]
      constructor
      · simp [opticrumInputs, h.lock, hparty.filter_eq_nil hordinary]
      · intro p hp
        rcases List.mem_append.mp hp with hp | hp
        · exact .inr (hparty.lock p hp)
        · exact .inl (List.mem_singleton.mp hp)

/-- A transaction that neither party signs does not spend a match. -/
theorem AcceptedBy.signed_of_match {codeHash : Byte32} {tx : Transaction} {a : MatchArgs}
    {d : MatchData} (haccepted : AcceptedBy codeHash tx) (hc : c ∈ opticrumInputs codeHash tx)
    (hmatch : IsMatch c.toCell a d) :
    Signed tx a.sellerLockHash ∨ Signed tx a.orderArgs.buyerLockHash := by
  rcases haccepted.authorized hc with ⟨a', hargs, -⟩ | ⟨a', hargs, hauthorized⟩
  · exact absurd (hargs.symm.trans hmatch.args_eq) (orderArgs_ne_matchArgs a' a)
  · obtain rfl := MatchArgs.toBytes_injective (hargs.symm.trans hmatch.args_eq)
    unfold MatchAuthorized at hauthorized
    cases hout : opticrumOutput? codeHash tx with
    | none =>
        rw [hout] at hauthorized
        exact .inl hauthorized
    | some o =>
        rw [hout] at hauthorized
        rcases hauthorized.2 with ⟨hbuyer, -⟩ | ⟨hseller, -⟩
        · exact .inr hbuyer
        · exact .inl hseller

/-- An extraction behind a dep group: accepted with the address of the seller, and it
closes the match or pays the rent. -/
theorem LiveMatch.extract_prepared (h : LiveMatch rpc c info) (doc : Documented rpc runBasic)
    (hkeeps : KeepsDeps runBasic) {prepare balance : Stage}
    (stages : DocumentedStages seller prepare balance)
    (hseller : ActsFor (rpc.codeHash opticrumContractName) seller info.matchArgs.sellerLockHash)
    {operations : Instruction} {sk : TransactionSkeleton}
    (hops : (extractRent seller info tip : Outcome Empty _) = .ok operations)
    (hsk : newSkeleton [prepare, runInstruction rpc runBasic operations, balance] = .ok sk) :
    AcceptedBy (rpc.codeHash opticrumContractName) sk.toTransaction ∧
      ((opticrumOutput? (rpc.codeHash opticrumContractName) sk.toTransaction = none ∧
          c.unoccupied ≤ rentAt c info.matchData tip.toNat) ∨
        ∃ o, opticrumOutput? (rpc.codeHash opticrumContractName) sk.toTransaction = some o ∧
          o.unoccupied + rentAt c info.matchData tip.toNat = c.unoccupied) := by
  obtain ⟨exhausted, htest, hops'⟩ := Outcome.bind_eq_ok_iff.mp hops
  have hvalue : valueOf c.toCell = c.unoccupied :=
    valueOf_of_type_none h.infoOf.decodes h.plain
  cases exhausted with
  | true =>
      obtain rfl := Except.ok.inj hops'
      obtain ⟨-, haccepted, hnone⟩ := PassesBehind.prepared (fun group hkind =>
        (h.extract_passes_of_exhausted (doc.behindDeps (List.forall_mem_singleton.mpr hkind))
          hseller htest).behind_of_none hkeeps hops namesDep_destroyMatch)
        stages hseller List.not_mem_nil hops hsk
      have hcovered := (h.infoOf.isExhausted_eq_ok_iff.mp htest).2
      refine ⟨haccepted, .inl ⟨hnone, ?_⟩⟩
      rw [← hvalue]
      simpa using hcovered
  | false =>
      obtain ⟨-, haccepted, o, rent, hout, hrent, hpool⟩ := PassesBehind.prepared
        (fun group hkind => h.extract_behind doc hkeeps (List.forall_mem_singleton.mpr hkind)
          hseller htest) stages hseller (fun hmem => h.parties (List.mem_singleton.mp hmem).symm)
        hops hsk
      refine ⟨haccepted, .inr ⟨o, hout, ?_⟩⟩
      rwa [h.infoOf.extractionAmount_eq_ok_iff.mp hrent]

/-- An extraction behind a dep group spends the match, and no lock signs but the match's and
the address's. -/
theorem LiveMatch.extract_spends (h : LiveMatch rpc c info) (doc : Documented rpc runBasic)
    (hkeeps : KeepsDeps runBasic) {prepare balance : Stage}
    (stages : DocumentedStages seller prepare balance)
    (hordinary : isOpticrumLock (rpc.codeHash opticrumContractName) seller.script = false)
    {operations : Instruction} {sk : TransactionSkeleton}
    (hops : (extractRent seller info tip : Outcome Empty _) = .ok operations)
    (hsk : newSkeleton [prepare, runInstruction rpc runBasic operations, balance] = .ok sk)
    {avoid : List Byte32} (haddress : calcScriptHash seller.script ∉ avoid)
    (hlock : calcScriptHash c.lock ∉ avoid) :
    opticrumInputs (rpc.codeHash opticrumContractName) sk.toTransaction = [c] ∧
      ∀ lockHash ∈ avoid, ¬ Signed sk.toTransaction lockHash := by
  obtain ⟨group, sk₁, hkind, hrun, hcompletes⟩ := stages.prepared ⟨rfl, hordinary⟩ haddress hsk
  obtain ⟨sk₂, hrun₂, rfl⟩ := runInstruction_behind hkeeps (namesDep_extractRent hops) hrun
  obtain ⟨hsole, hinputs⟩ :=
    h.extract_inputs (doc.behindDeps (List.forall_mem_singleton.mpr hkind)) hordinary hops hrun₂
  refine ⟨hcompletes.opticrumInputs_eq.trans hsole, fun lockHash hmem => ?_⟩
  refine hcompletes.not_signed hmem fun p hp hhash => ?_
  rcases hinputs p hp with rfl | hparty
  · exact hlock (hhash ▸ hmem)
  · rw [hparty] at hhash
    exact haddress (hhash ▸ hmem)

/-- **The seller's binary.** `extract_liquidity_rent` does not ask whose match it picks, and
does not have to: on a match for capacity, what it builds is accepted exactly when the address
is the seller's.  It then pays the rent up to the tip, or closes a match whose pool does not
outlast it.

The buyer's address is set apart: with his signature in place of the seller's, an extraction
would be checked as an update of his. -/
theorem rent_extracted {host : Host} {cells : List LiveCell} (doc : host.Documented cells)
    (hordinary : isOpticrumLock host.codeHash seller.script = false) {matchIndex : ℕ}
    {sk : TransactionSkeleton} (h : host.extractLiquidityRent seller matchIndex = .ok sk) :
    ∃ tip c info, host.tipBlockNumber = .ok tip ∧
      (recognisedMatches host.codeHash cells)[matchIndex]? = some c ∧ MatchInfoOf c info ∧
      (CkbMatch host.codeHash c info.matchArgs info.matchData →
        calcScriptHash seller.script ≠ info.matchArgs.orderArgs.buyerLockHash →
        opticrumInputs host.codeHash sk.toTransaction = [c] ∧
        (AcceptedBy host.codeHash sk.toTransaction ↔
          calcScriptHash seller.script = info.matchArgs.sellerLockHash) ∧
        (AcceptedBy host.codeHash sk.toTransaction →
          (opticrumOutput? host.codeHash sk.toTransaction = none ∧
              c.unoccupied ≤ rentAt c info.matchData tip.toNat) ∨
            ∃ o, opticrumOutput? host.codeHash sk.toTransaction = some o ∧
              o.unoccupied + rentAt c info.matchData tip.toNat = c.unoccupied)) := by
  -- the binary line by line, up to the pipeline
  obtain ⟨tip, htip, h₁⟩ := Outcome.bind_eq_ok_iff.mp h
  obtain ⟨infos, hscan, h₂⟩ := Outcome.bind_eq_ok_iff.mp h₁
  obtain ⟨info, hpick, h₃⟩ := Outcome.bind_eq_ok_iff.mp h₂
  obtain ⟨_, -, h₄⟩ := Outcome.bind_eq_ok_iff.mp h₃
  obtain ⟨operations, hops, hsk⟩ := Outcome.bind_eq_ok_iff.mp h₄
  obtain ⟨c, hc, hinfo⟩ := doc.picked_match hscan (expect_eq_ok_iff.mp hpick)
  obtain ⟨hserved, hlock⟩ := mem_of_recognisedMatches (List.mem_of_getElem? hc)
  refine ⟨tip, c, info, htip, hc, hinfo, fun hmatch hbuyer => ?_⟩
  have hlive : LiveMatch host.rpc c info := hmatch.liveMatch (doc.live c hserved) hinfo
  have hframework : Documented host.rpc host.runBasic := doc.framework.toDocumented
  have hstages := doc.signingWithCkbCli seller
  have hspends := fun (avoid : List Byte32) (haddress : calcScriptHash seller.script ∉ avoid)
      (hself : calcScriptHash c.lock ∉ avoid) => hlive.extract_spends hframework doc.keeps hstages
    hordinary (extractRent_of_ok hops) hsk haddress hself
  have hpays := fun hhash => hlive.extract_prepared hframework doc.keeps hstages ⟨hhash, hordinary⟩
    (extractRent_of_ok hops) hsk
  have hsole : opticrumInputs host.codeHash sk.toTransaction = [c] :=
    (hspends [] List.not_mem_nil List.not_mem_nil).1
  have hsigner : AcceptedBy host.codeHash sk.toTransaction →
      calcScriptHash seller.script = info.matchArgs.sellerLockHash := by
    intro haccepted
    -- an address that is neither party's signs for neither, and the match is not let go
    by_contra hother
    obtain ⟨-, hunsigned⟩ := hspends
      [info.matchArgs.sellerLockHash, info.matchArgs.orderArgs.buyerLockHash]
      (by simp [hother, hbuyer]) (by simp [hmatch.notSeller, hmatch.notBuyer])
    rcases haccepted.signed_of_match (hsole ▸ List.mem_singleton_self c) hmatch.decodes with
      hsigned | hsigned
    · exact hunsigned _ List.mem_cons_self hsigned
    · exact hunsigned _ (List.mem_cons_of_mem _ List.mem_cons_self) hsigned
  exact ⟨hsole, ⟨hsigner, fun hhash => (hpays hhash).1⟩,
    fun haccepted => (hpays (hsigner haccepted)).2⟩

end Extract

/-! ## Matching an order -/

section Match

variable {rpc : RPC}
  {runBasic : BasicOperation → TransactionSkeleton → Outcome String TransactionSkeleton}
  {c : LiveCell} {info : OrderInfo} {seller : Address} {matchArgs : MatchArgs}
  {sk : TransactionSkeleton}

omit [ScriptHash] in
/-- A match names a live channel, or nothing is built. -/
theorem Documented.matchOrder_channel (doc : Documented rpc runBasic)
    (h : runInstruction rpc runBasic (matchOrder seller info matchArgs) .new = .ok sk) :
    ∃ channel, rpc.liveCell matchArgs.channelOutpoint.packed = some channel := by
  simp only [matchOrder, runInstruction_cons_eq_ok_iff] at h
  obtain ⟨sk₁, -, sk₂, h₂, -⟩ := h
  obtain ⟨channel, deps, hchannel, -, -⟩ := doc.addCellDep h₂
  exact ⟨channel, hchannel⟩

/-- The completed match of an order: what it spends, what it leaves, and where the script
looks for the channel. -/
theorem LiveOrder.match_inspects (h : LiveOrder rpc c info) (doc : Documented rpc runBasic)
    (hordinary : isOpticrumLock (rpc.codeHash opticrumContractName) seller.script = false)
    {channel : LiveCell} (hchannel : rpc.liveCell matchArgs.channelOutpoint.packed = some channel)
    (hrun : runInstruction rpc runBasic (matchOrder seller info matchArgs) .new = .ok sk)
    {avoid : List Byte32} {tx : Transaction}
    (hcompletes : Completes (rpc.codeHash opticrumContractName) avoid sk.toTransaction tx) :
    opticrumInputs (rpc.codeHash opticrumContractName) tx = [c] ∧
      (∃ o, opticrumOutput? (rpc.codeHash opticrumContractName) tx = some o ∧
        IsMatch o matchArgs (MatchData.new 0 info.orderData.shannonsPerBlock)) ∧
      ∃ i, tx.rawCellDeps.findIdx? (fun dep => matchArgs.channelOutpoint.isAt dep.outPoint) =
        some i ∧ tx.resolvedCellDeps[i]? = some channel := by
  obtain ⟨contract, deps, headers, party, o, hparty, hcontract, hdeps, -, -, hcopy, hdraft⟩ :=
    doc.matchOrder_draft h.liveCell hchannel h.xudt hrun
  rw [hdraft] at hcompletes
  refine ⟨hcompletes.sole_of_cons hparty hordinary h.lock,
    ⟨o, hcompletes.opticrumOutput?_eq.trans ?_, ?_⟩,
    hcompletes.exists_findIdx? hdeps hcontract hchannel⟩
  · simp [opticrumOutput?, hcopy.lock, isOpticrumLock]
  · exact isMatch_of_toBytes (by rw [hcopy.lock]) hcopy.data

/-- An order that is matched with the channel the script looks at is met by it. -/
theorem LiveOrder.meets_of_accepted (h : LiveOrder rpc c info) {channel : LiveCell}
    (hchannel : rpc.liveCell matchArgs.channelOutpoint.packed = some channel) {tx : Transaction}
    (haccepted : AcceptedBy (rpc.codeHash opticrumContractName) tx)
    (hsole : opticrumInputs (rpc.codeHash opticrumContractName) tx = [c]) {o : Cell} {d : MatchData}
    (hout : opticrumOutput? (rpc.codeHash opticrumContractName) tx = some o)
    (hnew : IsMatch o matchArgs d) {i : ℕ}
    (hlisted : tx.rawCellDeps.findIdx?
      (fun dep => matchArgs.channelOutpoint.isAt dep.outPoint) = some i)
    (hcell : tx.resolvedCellDeps[i]? = some channel) :
    MeetsOrder rpc c info matchArgs.channelOutpoint channel := by
  have htransition := haccepted.transition h.lock (groupInputs_of_sole hsole)
  rw [hout] at htransition
  cases htransition with
  | orderMatch old new args xudt listed inspected meets _ _ _ _ _ _ _ younger =>
      obtain ⟨rfl, rfl⟩ := old.unique h.infoOf.decodes
      obtain ⟨rfl, rfl⟩ := new.unique hnew
      obtain rfl := Option.some.inj (listed.symm.trans hlisted)
      obtain rfl := Option.some.inj (inspected.symm.trans hcell)
      obtain ⟨⟨hfunding, htype⟩, -, -, hcapacity⟩ := channelMeets_eq_ok_true_iff.mp meets
      refine ⟨hchannel, hfunding, htype, hcapacity _ ?_, younger⟩
      rw [if_neg (by rw [h.amount]; decide)]
      rfl
  | sellerExtract old => exact absurd h.infoOf.decodes old.not_isOrder
  | buyerUpdate old => exact absurd h.infoOf.decodes old.not_isOrder

/-- **The seller's match.** What `match_order` builds for an order for capacity is accepted
exactly when the channel it names meets the order; the pool of the match is then that of the
order.

The binary does not look at the channel.  That the transaction is built says that a live cell is
at the out point, and the rest is for the contract to find out. -/
theorem order_matched {host : Host} {cells : List LiveCell} (doc : host.Documented cells)
    {sellerLockHash channelTxHash : Byte32} {channelIndex : U32}
    (hseller : ActsFor host.codeHash seller sellerLockHash) {orderIndex : ℕ}
    (h : host.matchOrderMain seller sellerLockHash channelTxHash channelIndex orderIndex =
      .ok sk) :
    ∃ c info, (recognisedOrders host.codeHash cells)[orderIndex]? = some c ∧
      OrderInfoOf c info ∧
      (CkbOrder host.codeHash c info.orderArgs info.orderData →
        c.capacity.toNat + orderToMatchCapacityReserve.toNat < 2 ^ 64 →
        opticrumInputs host.codeHash sk.toTransaction = [c] ∧
        (AcceptedBy host.codeHash sk.toTransaction ↔
          ∃ channel, MeetsOrder host.rpc c info ⟨channelTxHash, channelIndex⟩ channel) ∧
        (AcceptedBy host.codeHash sk.toTransaction →
          ∃ o, opticrumOutput? host.codeHash sk.toTransaction = some o ∧
            IsMatch o ⟨info.orderArgs, ⟨channelTxHash, channelIndex⟩, sellerLockHash⟩
              (MatchData.new 0 info.orderData.shannonsPerBlock) ∧
            o.unoccupied = c.unoccupied)) := by
  obtain ⟨key, -, h₁⟩ := Outcome.bind_eq_ok_iff.mp h
  obtain ⟨infos, hscan, h₂⟩ := Outcome.bind_eq_ok_iff.mp h₁
  obtain ⟨info, hpick, hsk⟩ := Outcome.bind_eq_ok_iff.mp h₂
  obtain ⟨c, hc, hinfo⟩ := doc.picked_order hscan (expect_eq_ok_iff.mp hpick)
  obtain ⟨hserved, hlock⟩ := mem_of_recognisedOrders (List.mem_of_getElem? hc)
  refine ⟨c, info, hc, hinfo, fun horder hcapacity => ?_⟩
  have hlive : LiveOrder host.rpc c info :=
    horder.liveOrder (doc.live c hserved) hinfo info.fiberAddress
  have hframework : Documented host.rpc host.runBasic := doc.framework.toDocumented
  have hstages := doc.signing seller key
  obtain ⟨sk₁, hmatch, sk₂, hprepare, hbalance⟩ := newSkeleton_eq_ok_iff.mp hsk
  obtain ⟨group, -, rfl⟩ := hstages.prepare hprepare
  -- the dep of the system lock comes last, and completes the draft with the rest
  have hcompletes : Completes host.codeHash [] sk₁.toTransaction sk.toTransaction :=
    (hstages.completes hseller List.not_mem_nil hbalance).of_dep
  obtain ⟨channel, hchannel⟩ := hframework.matchOrder_channel hmatch
  obtain ⟨hsole, ⟨o, hout, hnew⟩, i, hlisted, hcell⟩ :=
    hlive.match_inspects hframework hseller.ordinary hchannel hmatch hcompletes
  have hargs : info.orderArgs = MatchArgs.orderArgs
      ⟨info.orderArgs, ⟨channelTxHash, channelIndex⟩, sellerLockHash⟩ := rfl
  have hpays : ∀ channel, MeetsOrder host.rpc c info ⟨channelTxHash, channelIndex⟩ channel → _ :=
    fun _ hmeets => hlive.matching_first hframework hstages hargs hseller hmeets hcapacity hsk
  have hmeets : AcceptedBy host.codeHash sk.toTransaction →
      MeetsOrder host.rpc c info ⟨channelTxHash, channelIndex⟩ channel := fun haccepted =>
    hlive.meets_of_accepted hchannel haccepted hsole hout hnew hlisted hcell
  refine ⟨hsole, ⟨fun haccepted => ⟨channel, hmeets haccepted⟩, fun ⟨channel', hmeets'⟩ =>
    (hpays channel' hmeets').2.1⟩, fun haccepted => ?_⟩
  obtain ⟨-, -, o', hout', hpool⟩ := hpays channel (hmeets haccepted)
  obtain rfl := Option.some.inj (hout.symm.trans hout')
  exact ⟨o, hout, hnew, hpool⟩

end Match

/-! ## Creating an order -/

section Create

variable {codeHash : Byte32} {buyer seller : Address} {matchArgs : MatchArgs}

/-- The match in `c` is read, and found exhausted from block `last` on, as long as the rent
can be computed. -/
def ExhaustedFrom (last : ℕ) (c : LiveCell) : Prop :=
  ∃ info, parseMatchCell c = .ok info ∧ ∀ tip : U64, rentAt c info.matchData tip.toNat < 2 ^ 64 →
    (info.isExhausted tip : Outcome Empty Bool) = .ok (decide (last ≤ tip.toNat))

omit [ScriptHash] in
/-- A pool of so many rents lasts so many blocks, counted from the block of the match. -/
theorem HandedOver.exhaustedFrom {order c : LiveCell} {d : OrderData} {block : U64} {blocks : ℕ}
    (h : HandedOver codeHash order d matchArgs block c) (hrate : 0 < d.shannonsPerBlock.toNat)
    (hpool : order.unoccupied = d.shannonsPerBlock.toNat * blocks) (hblocks : 0 < blocks) :
    ExhaustedFrom (block.toNat + blocks) c := by
  obtain ⟨info, hinfo, -, hdata⟩ := exists_matchInfoOf h.decodes h.fits
  refine ⟨info, parseMatchCell_eq_ok_iff.mpr hinfo, fun tip hfits => ?_⟩
  rw [hinfo.isExhausted_of_lt hfits, hdata, h.valueOf_eq, h.rentAt_eq, hpool]
  congr 1
  refine decide_eq_decide.mpr ?_
  rw [Nat.mul_le_mul_left_iff hrate]
  omega

/-- **The buyer's order.** What `create_order` builds carries the order as its first output;
matched with any channel that meets it, by any seller, the buyer himself included, the order
becomes a match that lasts for the 100,000 blocks the binary has funded, and is exhausted from
then on.

The count starts at the block of the match and not at that of the order: an order that waits
loses nothing.  Its last block is one at which the test of exhaustion still says no. -/
theorem order_funded {host : Host} {cells : List LiveCell} (doc : host.Documented cells)
    {orderArgs : OrderArgs} {channelCapacity rentPerBlock : U64} {fiberAddress : Option String}
    {sk : TransactionSkeleton}
    (hrate : 0 < rentPerBlock.toNat)
    (hfits : oneCkb * 206 + rentPerBlock.toNat * 100000 < 2 ^ 64)
    (h : host.createOrderMain buyer orderArgs channelCapacity rentPerBlock fiberAddress = .ok sk) :
    ∃ o, sk.outputs[0]? = some o ∧ ∀ c : LiveCell, c.toCell = o →
      CkbOrder host.codeHash c orderArgs ⟨0, channelCapacity, rentPerBlock⟩ ∧
      ∀ {seller matchArgs} (matchBlock : U64), matchArgs.orderArgs = orderArgs →
        ActsFor host.codeHash seller matchArgs.sellerLockHash →
          Matched host.codeHash seller matchArgs matchBlock
            (fun s => ∃ m, s = some m ∧ ExhaustedFrom (matchBlock.toNat + 100000) m) c := by
  obtain ⟨sk₁, hprepare, sk₂, hcreate, hbalance⟩ := newSkeleton_eq_ok_iff.mp h
  have hstages := doc.signingWithCkbCli buyer
  obtain ⟨group, -, rfl⟩ := hstages.prepare hprepare
  -- the product does not saturate, so the escrow lasts for all of the blocks
  have hfunds : (saturatingMul rentPerBlock 100000).toNat = rentPerBlock.toNat * 100000 :=
    toNat_saturatingMul_of_lt (show rentPerBlock.toNat * 100000 < 2 ^ 64 by omega)
  have hcreated := fun block => created buyer orderArgs ⟨0, channelCapacity, rentPerBlock⟩
    fiberAddress block (by rw [hfunds]; exact hfits) host.rpc host.runBasic doc.framework rfl
      _ _ hcreate
  obtain ⟨o, houtputs, -⟩ := hcreated 0
  refine ⟨o, ?_, fun c hc => ?_⟩
  · obtain ⟨party, change, deps, headers, -, -, hbalanced⟩ := hstages.balance hbalance
    rw [hbalanced, houtputs]
    rfl
  · obtain ⟨o', houtputs', hresult⟩ := hcreated c.header.number
    have hsame : [o] = [o'] := List.append_cancel_left (houtputs.symm.trans houtputs')
    obtain ⟨horder, hheld⟩ := hresult c (hc.trans (List.singleton_inj.mp hsame)) rfl
    refine ⟨horder, fun matchBlock hargs hseller => ?_⟩
    have hreserve : orderToMatchCapacityReserve.toNat = oneCkb * 68 := by decide
    have hpool : c.unoccupied = rentPerBlock.toNat * 100000 := by
      rw [Cell.unoccupied, hheld, horder.occupied_eq, Nat.add_sub_cancel_left, hfunds]
    refine (horder.handsOver hargs hseller (by omega) matchBlock).mono ?_
    rintro s ⟨m, rfl, hover⟩
    exact ⟨m, rfl, hover.exhaustedFrom hrate hpool (by decide)⟩

end Create

end Binaries

/-! ## On the test network -/

namespace Testnet

open Market (contractCell channelCell sellerCell buyerCell headerAt sellerLock buyerLock
  sellerLockHash buyerLockHash matchArgs orderArgs)

/-- The live cells of the chain. -/
def liveCells : List LiveCell :=
  [contractCell, channelCell, sellerCell, buyerCell, (Market.order 0).toLiveCell,
    Market.running.toLiveCell]

/-- The node that knows these cells and the header of every block. -/
def hostNode : RPC :=
  .ofCells liveCells (fun n => headerAt n.toNat) Market.codeHash Market.number_headerAt (by
    simp only [liveCells, List.forall_mem_cons]
    exact ⟨⟨fund_funded (by decide), rfl⟩, ⟨by decide, rfl⟩, ⟨fund_funded (by decide), rfl⟩,
      ⟨fund_funded (by decide), rfl⟩, ⟨orderOutput_funded (by decide), rfl⟩,
      ⟨matchOutput_funded (by decide), rfl⟩, List.forall_mem_nil _⟩)

/-- A host on the test network, at block 1100. -/
def host : Host where
  var _ := some "00"
  secretKey _ := .ok [0]
  rpc := hostNode
  indexer := indexerOf liveCells
  codec := Molecule.codec
  tipBlockNumber := .ok 1100
  runBasic := simulateOutputs hostNode contractCell [sellerCell, buyerCell]
  addSecp256k1SighashCellDep := Market.addSystemGroup
  balanceAndSign _ _ := Market.alreadyBalanced
  balanceAndSignWithCkbCli _ := Market.alreadyBalanced

/-- The host does what is documented: its framework is the simulated one, its node and its
indexer serve the same cells, and the contract is deployed. -/
theorem documented_host : host.Documented liveCells where
  framework := documentedCapacity_simulate (show hostNode.Live contractCell by rfl)
  keeps := keepsDeps_simulateOutputs
  signing address _ := Market.documentedStages_market address
  signingWithCkbCli address := Market.documentedStages_market address
  serves := serves_indexerOf liveCells
  live := by
    simp only [liveCells, List.forall_mem_cons]
    exact ⟨rfl, rfl, rfl, rfl, rfl, rfl, List.forall_mem_nil _⟩
  deployed := ⟨typeId, rfl, opticrumCodeHash_typeId.symm⟩

/-- The parties of the market differ, and neither is the lock of the match. -/
theorem partiesApart : PartiesApart Market.codeHash matchArgs where
  parties := Market.sellerLockHash_ne_buyerLockHash.symm
  notBuyer := by decide
  notSeller := by decide

theorem actsFor_buyer : ActsFor host.codeHash ⟨buyerLock⟩ buyerLockHash := ⟨by decide, by decide⟩

theorem actsFor_seller : ActsFor host.codeHash ⟨sellerLock⟩ sellerLockHash :=
  ⟨by decide, by decide⟩

/-- The running match holds CKB only. -/
theorem ckbMatch_running :
    CkbMatch host.codeHash Market.running.toLiveCell matchArgs ⟨0, 3, 0⟩ where
  lock := Market.isOpticrumLock_matchCell
  plain := rfl
  decodes := isMatch_matchOutput
  canonical := by
    have hdata : Market.running.data = _ := matchOutput_data
    rw [hdata, Vector.length_toList]
  parties := partiesApart.parties
  notBuyer := partiesApart.notBuyer
  notSeller := partiesApart.notSeller

theorem ckbOrder_order : CkbOrder host.codeHash (Market.order 0).toLiveCell orderArgs
    ⟨0, 100000000000, 3⟩ where
  lock := Market.isOpticrumLock_orderCell
  plain := rfl
  decodes := isOrder_orderOutput
  amount := rfl

theorem running_unoccupied : Market.running.unoccupied = 100000 :=
  Market.matchCell_unoccupied (by decide)

theorem running_capacity : Market.running.capacity.toNat = oneCkb * 206 + 100000 := by
  have hoccupied : Market.running.occupied = oneCkb * 206 := Market.matchCell_occupied
  have hunoccupied := running_unoccupied
  rw [Cell.unoccupied, hoccupied] at hunoccupied
  omega

section Runs

set_option maxRecDepth 4000

/-- The running match is the first match that is recognised. -/
theorem recognisedMatches_liveCells :
    (recognisedMatches host.codeHash liveCells)[0]? = some Market.running.toLiveCell := rfl

theorem recognisedOrders_liveCells :
    (recognisedOrders host.codeHash liveCells)[0]? = some (Market.order 0).toLiveCell := rfl

/-- The buyer tops the match up by 10,000 CKB. -/
theorem topped_up : ∃ sk, host.topupRent ⟨buyerLock⟩ buyerLockHash 0 = .ok sk ∧
    AcceptedBy Market.codeHash sk.toTransaction ∧
    ∃ o, opticrumOutput? Market.codeHash sk.toTransaction = some o ∧
      (o.unoccupied : ℤ) = 100000 + 1000000000000 := by
  obtain ⟨sk, hsk⟩ : ∃ sk, host.topupRent ⟨buyerLock⟩ buyerLockHash 0 = .ok sk := ⟨_, rfl⟩
  obtain ⟨c, info, hc, hinfo, -, -, hpasses⟩ := rent_updated documented_host actsFor_buyer hsk
  obtain rfl := Option.some.inj (recognisedMatches_liveCells.symm.trans hc)
  obtain ⟨hargs, -⟩ := hinfo.decodes.unique isMatch_matchOutput
  have hoccupied : Market.running.occupied = oneCkb * 206 := Market.matchCell_occupied
  obtain ⟨haccepted, o, hout, hpool, -⟩ := hpasses ckbMatch_running.canonical
    (by rw [hargs]; exact partiesApart) (by rw [hoccupied, running_capacity]; decide)
    (by rw [running_capacity]; decide)
  refine ⟨sk, hsk, haccepted, o, hout, hpool.trans ?_⟩
  rw [running_unoccupied]
  decide

/-- At block 1100 the seller takes 300 shannons. -/
theorem extracted_by_seller : ∃ sk, host.extractLiquidityRent ⟨sellerLock⟩ 0 = .ok sk ∧
    AcceptedBy Market.codeHash sk.toTransaction ∧
    ∃ o, opticrumOutput? Market.codeHash sk.toTransaction = some o ∧
      o.unoccupied + 300 = 100000 := by
  obtain ⟨sk, hsk⟩ : ∃ sk, host.extractLiquidityRent ⟨sellerLock⟩ 0 = .ok sk := ⟨_, rfl⟩
  obtain ⟨tip, c, info, htip, hc, hinfo, hpays⟩ :=
    rent_extracted documented_host actsFor_seller.ordinary hsk
  obtain rfl : (1100 : U64) = tip := Except.ok.inj htip
  obtain rfl := Option.some.inj (recognisedMatches_liveCells.symm.trans hc)
  obtain ⟨hargs, hdata⟩ := hinfo.decodes.unique isMatch_matchOutput
  rw [hargs, hdata] at hpays
  obtain ⟨-, hiff, heffect⟩ := hpays ckbMatch_running (by decide)
  have haccepted := hiff.mpr actsFor_seller.hash
  have hrent : rentAt Market.running.toLiveCell ⟨0, 3, 0⟩ (1100 : U64).toNat = 300 :=
    (Market.matchCell_rentAt (by decide) _).trans rfl
  rw [hrent, running_unoccupied] at heffect
  rcases heffect haccepted with ⟨-, hcovered⟩ | ⟨o, hout, hpool⟩
  · exact absurd hcovered (by decide)
  · exact ⟨sk, hsk, haccepted, o, hout, hpool⟩

/-- The seller matches the order with the channel. -/
theorem matched_by_seller : ∃ sk, host.matchOrderMain ⟨sellerLock⟩ sellerLockHash
      matchArgs.channelOutpoint.txHash 0 0 = .ok sk ∧
    AcceptedBy Market.codeHash sk.toTransaction := by
  obtain ⟨sk, hsk⟩ : ∃ sk, host.matchOrderMain ⟨sellerLock⟩ sellerLockHash
    matchArgs.channelOutpoint.txHash 0 0 = .ok sk := ⟨_, rfl⟩
  obtain ⟨c, info, hc, hinfo, hmatches⟩ := order_matched documented_host actsFor_seller hsk
  obtain rfl := Option.some.inj (recognisedOrders_liveCells.symm.trans hc)
  obtain ⟨hargs, hdata⟩ := hinfo.decodes.unique isOrder_orderOutput
  obtain ⟨-, hiff, -⟩ := hmatches (by rw [hargs, hdata]; exact ckbOrder_order) (by decide)
  refine ⟨sk, hsk, hiff.mpr ⟨channelCell, by rfl, by decide, rfl, ?_, by decide⟩⟩
  rw [hdata]
  decide

/-- The buyer creates an order at 3 shannons per block. -/
theorem created_by_buyer : ∃ sk o, host.createOrderMain ⟨buyerLock⟩ orderArgs 100000000000 3
      none = .ok sk ∧ sk.outputs[0]? = some o ∧
    ∀ c : LiveCell, c.toCell = o → Matched Market.codeHash ⟨sellerLock⟩ matchArgs 1000
      (fun s => ∃ m, s = some m ∧ ExhaustedFrom 101000 m) c := by
  obtain ⟨sk, hsk⟩ : ∃ sk, host.createOrderMain ⟨buyerLock⟩ orderArgs 100000000000 3 none =
    .ok sk := ⟨_, rfl⟩
  obtain ⟨o, ho, hlife⟩ := order_funded documented_host (by decide) (by decide) hsk
  exact ⟨sk, o, hsk, ho, fun c hc => (hlife c hc).2 1000 rfl actsFor_seller⟩

end Runs

end Testnet

end Opticrum
