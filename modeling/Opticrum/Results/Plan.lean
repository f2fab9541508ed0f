import Opticrum.Calculator.Tenancy
import Opticrum.Results.Schedule

/-!
# Any plan of the parties is carried out

`Tenancy` says what extractions and updates do to the rate, the pool and the base of a
match for capacity.  The builders list transactions for them, and the contract decides
what becomes of these.  This module shows that builders and contract together do what
`Tenancy` says: any plan that is possible there is carried out on the chain, act by
act, in whatever order the parties act, and leaves a cell with the rate, the pool and
the base that `Tenancy` has.

## One act

`Act.Performed` is one act: the cell is read, a builder lists an instruction, and
whatever transaction it becomes the first instruction of, on whatever node the cell is
live, spends the cell and is accepted by the contract.  The next act starts from any cell
with the content of the output that was committed in the block of the act.

An act without an output closes the match.  That this is more than a transaction which
leaves the match alone comes from `Passes`, which has the cell among the inputs.

## How it is proved

Each act has one lemma that says what its builder's instruction leads to:
`CkbMatch.performs_extract`, `CkbMatch.performs_sweep` and `CkbMatch.performs_update`.
`performed_of_step` puts them together over the cases of `Tenancy.step_cases`, and the rule
`along_of_foldlM` takes it from one act to any plan.

An act is performed under demonic choice.  Every node on which the cell is live, every framework
that keeps to its documentation, every transaction that starts with the instruction and every
header of the block that commits it must lead on; the plan only chooses the acts.
-/

namespace Opticrum

open Rust Ckb TransitionSystem

section Plan

variable [ScriptHash]

/-- What the cell of a match for capacity comes to. -/
def tenancyOf (c : LiveCell) (d : MatchData) : Tenancy where
  rate := d.shannonsPerBlock.toNat
  pool := c.unoccupied
  base := rentBase c d
  stored := d.lastExtractionBlock ≠ 0

/-- The escrow `s` is a match for capacity that comes to `t`, or both are closed.  Different
cells may come to the same `t`. -/
def Embodies (codeHash : Byte32) (a : MatchArgs) : Option Tenancy → Option LiveCell → Prop
  | none, none => True
  | some t, some c => ∃ d, CkbMatch codeHash c a d ∧ tenancyOf c d = t
  | _, _ => False

/-- The tokens of a match, none when it holds none. -/
def currentXudt (info : MatchInfo) : U128 := (info.xudt.map Xudt.amount).getD 0

/-- What the party asks the calculator for. -/
def Act.builder (seller buyer : Address) (info : MatchInfo) : Act → Outcome Empty Instruction
  | .extract tip _ => extractRent seller info tip
  | .update delta _ => updateMatchBuyer buyer info (currentXudt info) delta

/-- The signature of the other party, which later instructions must not bring in.  An update
that both sign is rejected. -/
def Act.avoids (info : MatchInfo) : Act → List Byte32
  | .extract _ _ => [info.matchArgs.orderArgs.buyerLockHash]
  | .update _ _ => [info.matchArgs.sellerLockHash]

def Act.block : Act → U64
  | .extract _ block => block
  | .update _ block => block

/-- Whatever cell the output becomes in the block, `result` holds of it.  Without an output,
`result` holds of the closed escrow. -/
def Leaves (block : U64) (result : Option LiveCell → Prop) : Option Cell → Prop
  | none => result none
  | some o => ∀ c' : LiveCell, c'.toCell = o → c'.header.number = block → result (some c')

/-- The act is read, built and accepted: it spends the cell, and `result` holds of what it
leaves.  Nothing can be done to a match that is closed. -/
def Act.Performed (codeHash : Byte32) (seller buyer : Address) (act : Act)
    (result : Option LiveCell → Prop) : Option LiveCell → Prop
  | none => False
  | some c => ∃ info, parseMatchCell c = .ok info ∧
      ∀ rpc runBasic, Documented rpc runBasic → rpc.codeHash opticrumContractName = codeHash →
        rpc.Live c →
          Passes rpc runBasic (act.avoids info) (act.builder seller buyer info) c
            (Leaves act.block result)

/-! ### What passes -/

section Passing

variable {rpc : RPC}
  {runBasic : BasicOperation → TransactionSkeleton → Outcome String TransactionSkeleton}
  {avoid : List Byte32} {builder : Outcome Empty Instruction} {c : LiveCell}
  {result result' : Option Cell → Prop}

/-- What follows from the draft alone holds besides. -/
theorem Passes.and (h : Passes rpc runBasic avoid builder c result)
    (hdraft : ∀ instruction sk tx, builder = .ok instruction →
      runInstruction rpc runBasic instruction .new = .ok sk →
        Completes (rpc.codeHash opticrumContractName) avoid sk.toTransaction tx →
          result' (opticrumOutput? (rpc.codeHash opticrumContractName) tx)) :
    Passes rpc runBasic avoid builder c (fun o? => result o? ∧ result' o?) := by
  obtain ⟨instruction, hbuilder, hpasses⟩ := h
  refine ⟨instruction, hbuilder, fun sk tx hrun hcompletes => ?_⟩
  obtain ⟨hsole, haccepted, hout⟩ := hpasses sk tx hrun hcompletes
  exact ⟨hsole, haccepted, hout, hdraft instruction sk tx hbuilder hrun hcompletes⟩

/-- More signatures may be avoided. -/
theorem Passes.avoiding (h : Passes rpc runBasic [] builder c result) :
    Passes rpc runBasic avoid builder c result := by
  obtain ⟨instruction, hbuilder, hpasses⟩ := h
  refine ⟨instruction, hbuilder, fun sk tx hrun hcompletes => hpasses sk tx hrun ?_⟩
  obtain ⟨more, hinputs, hmore⟩ := hcompletes.inputs
  exact ⟨⟨more, hinputs, fun p hp => ⟨(hmore p hp).1, List.not_mem_nil⟩⟩, hcompletes.outputs,
    hcompletes.cellDeps, hcompletes.headerDeps⟩

omit [ScriptHash] in
theorem Leaves.mono {block : U64} {P Q : Option LiveCell → Prop} (hPQ : ∀ s, P s → Q s)
    {o? : Option Cell} (h : Leaves block P o?) : Leaves block Q o? := by
  cases o? with
  | none => exact hPQ none h
  | some o => exact fun c' hc' hblock => hPQ (some c') (h c' hc' hblock)

end Passing

variable {codeHash : Byte32} {seller buyer : Address} {a : MatchArgs} {d : MatchData}
  {c : LiveCell}

theorem Act.Performed.mono {act : Act} {P Q : Option LiveCell → Prop} {s : Option LiveCell}
    (hPQ : ∀ s, P s → Q s) (h : act.Performed codeHash seller buyer P s) :
    act.Performed codeHash seller buyer Q s := by
  cases s with
  | none => exact h
  | some c =>
      obtain ⟨info, hparsed, hpasses⟩ := h
      refine ⟨info, hparsed, fun rpc runBasic doc hcode hlive => ?_⟩
      exact (hpasses rpc runBasic doc hcode hlive).mono fun _ => Leaves.mono hPQ

/-! ### The acts -/

/-- A match for capacity is read as what it is. -/
theorem CkbMatch.exists_info (h : CkbMatch codeHash c a d) :
    ∃ info, MatchInfoOf c info ∧ info.matchArgs = a ∧ info.matchData = d :=
  exists_matchInfoOf h.decodes h.fits

omit [ScriptHash] in
theorem rent_tenancyOf {tip : U64} : (tenancyOf c d).rent tip = rentAt c d tip.toNat := rfl

/-- An extraction that leaves the match open. -/
theorem CkbMatch.performs_extract (h : CkbMatch codeHash c a d)
    (hseller : ActsFor codeHash seller a.sellerLockHash) {tip block : U64}
    (halive : (tenancyOf c d).rent tip < (tenancyOf c d).pool) :
    (Act.extract tip block).Performed codeHash seller buyer
      (Embodies codeHash a (some ((tenancyOf c d).extracted tip block))) (some c) := by
  obtain ⟨info, hparsed, hpasses⟩ := h.extracts hseller halive
  refine ⟨info, hparsed, fun rpc runBasic doc hcode hlive => ?_⟩
  refine (hpasses rpc runBasic doc hcode hlive).mono ?_
  rintro o? ⟨o, rfl, hleft⟩ c' hc' hblock
  obtain ⟨hmatch, hpool⟩ := hleft c' hc'
  refine ⟨d.extractedAt tip, hmatch, ?_⟩
  have hbase : rentBase c' (d.extractedAt tip) = if tip = 0 then block.toNat else tip.toNat := by
    rw [rentBase, LiveCell.block, hblock]
    rfl
  rw [tenancyOf, hbase, Tenancy.extracted, rent_tenancyOf]
  congr 1
  exact Nat.eq_sub_of_add_eq hpool

/-- An extraction that closes it. -/
theorem CkbMatch.performs_sweep (h : CkbMatch codeHash c a d)
    (hseller : ActsFor codeHash seller a.sellerLockHash) {tip block : U64}
    (hexhausted : (tenancyOf c d).pool ≤ (tenancyOf c d).rent tip)
    (hfits : (tenancyOf c d).rent tip < 2 ^ 64) :
    (Act.extract tip block).Performed codeHash seller buyer (Embodies codeHash a none)
      (some c) := by
  obtain ⟨info, hinfo, rfl, rfl⟩ := h.exists_info
  have hvalue : valueOf c.toCell = c.unoccupied := valueOf_of_type_none h.decodes h.plain
  have htest : (info.isExhausted tip : Outcome Empty Bool) = .ok true := by
    rw [hinfo.isExhausted_eq_ok_iff]
    exact ⟨hfits, (decide_eq_true (hvalue ▸ hexhausted)).symm⟩
  refine ⟨info, parseMatchCell_eq_ok_iff.mpr hinfo, fun rpc runBasic doc hcode hlive => ?_⟩
  subst hcode
  refine ((h.liveMatch hlive hinfo).extract_passes_of_exhausted doc hseller htest).avoiding.mono ?_
  rintro o? rfl
  exact trivial

/-- An update leaves a copy of the match with the pool asked for. -/
theorem LiveMatch.update_copies {rpc : RPC}
    {runBasic : BasicOperation → TransactionSkeleton → Outcome String TransactionSkeleton}
    {info : MatchInfo} (h : LiveMatch rpc c info) (doc : Documented rpc runBasic)
    {newXudtAmount : U128} {delta : I64}
    (hbuyer : ActsFor (rpc.codeHash opticrumContractName) buyer
      info.matchArgs.orderArgs.buyerLockHash)
    (hdelta : delta ≠ BitVec.intMin 64)
    (hlow : (c.occupied : ℤ) ≤ c.capacity.toNat + delta.toInt)
    (hhigh : (c.capacity.toNat : ℤ) + delta.toInt < 2 ^ 64) :
    Passes rpc runBasic [info.matchArgs.sellerLockHash]
      (updateMatchBuyer buyer info newXudtAmount delta) c
      (fun o? => (∃ o, o? = some o ∧ (o.unoccupied : ℤ) = c.unoccupied + delta.toInt) ∧
        ∃ adjust o, o? = some o ∧ CopyOf c.toCell adjust c.lock
          (MatchData.toBytes { info.matchData with xudtAmount := newXudtAmount }).toList o) := by
  refine (h.update_passes doc hbuyer hdelta hlow hhigh).and fun operations sk tx hops hrun hc => ?_
  obtain ⟨contract, party, adjust, o, -, -, hcopy, hdraft⟩ :=
    doc.updateMatchBuyer_draft h.liveCell hops hrun
  refine ⟨adjust, o, ?_, hcopy⟩
  rw [hc.opticrumOutput?_eq, hdraft]
  simp [opticrumOutput?, hcopy.lock, h.lock]

/-- An update. -/
theorem CkbMatch.performs_update (h : CkbMatch codeHash c a d)
    (hbuyer : ActsFor codeHash buyer a.orderArgs.buyerLockHash) {delta : I64} {block : U64}
    (hallows : (tenancyOf c d).Allows delta) :
    (Act.update delta block).Performed codeHash seller buyer
      (Embodies codeHash a (some ((tenancyOf c d).updated delta block))) (some c) := by
  obtain ⟨info, hinfo, rfl, rfl⟩ := h.exists_info
  obtain ⟨hdelta, hlow, hhigh⟩ := hallows
  have hoccupied : c.occupied = tenancyOccupied := by
    rw [h.decodes.occupied_eq h.canonical, h.plain]
    rfl
  have hpool : (tenancyOf c info.matchData).pool = c.capacity.toNat - tenancyOccupied :=
    congrArg (c.capacity.toNat - ·) hoccupied
  rw [hpool] at hlow hhigh
  refine ⟨info, parseMatchCell_eq_ok_iff.mpr hinfo, fun rpc runBasic doc hcode hlive => ?_⟩
  subst hcode
  have hmatch := h.liveMatch hlive hinfo
  have hfunded : tenancyOccupied ≤ c.capacity.toNat := hoccupied ▸ rpc.liveCell_funded hlive
  refine (hmatch.update_copies doc hbuyer hdelta (by rw [hoccupied]; omega) (by omega)).mono ?_
  rintro o? ⟨⟨o, rfl, hsum⟩, adjust, o', ho', hcopy⟩ c' rfl hblock
  obtain rfl := Option.some.inj ho'
  refine ⟨_, h.copy hcopy, ?_⟩
  have hbase : rentBase c' { info.matchData with xudtAmount := currentXudt info } =
      if info.matchData.lastExtractionBlock ≠ 0 then rentBase c info.matchData
      else block.toNat := by
    by_cases hzero : info.matchData.lastExtractionBlock = 0
    · rw [if_neg (not_not.mpr hzero)]
      exact (rentBase_of_eq_zero hzero).trans (congrArg BitVec.toNat hblock)
    · rw [if_pos hzero]
      exact (if_neg hzero).trans (if_neg hzero).symm
  have hleft : (c'.unoccupied : ℤ) = (tenancyOf c info.matchData).pool + delta.toInt := hsum
  rw [tenancyOf, hbase, Tenancy.updated, ← hleft, Int.toNat_natCast]
  simp [tenancyOf]

/-! ### A plan -/

/-- One extraction that `Tenancy` allows is performed, whatever the buyer does. -/
theorem performed_of_extract (hseller : ActsFor codeHash seller a.sellerLockHash)
    {t t' : Option Tenancy} {tip block : U64} {s : Option LiveCell}
    (hstep : Tenancy.step t (.extract tip block) = some t') (h : Embodies codeHash a t s) :
    (Act.extract tip block).Performed codeHash seller buyer (Embodies codeHash a t') s := by
  cases t with
  | none => cases hstep
  | some t =>
      cases s with
      | none => exact h.elim
      | some c =>
          obtain ⟨d, hmatch, rfl⟩ := h
          rcases Tenancy.step_cases hstep with ⟨_, _, hact, halive, rfl⟩ |
            ⟨_, _, hact, hexhausted, hfits, rfl⟩ | ⟨_, _, hact, -, -⟩
          · cases hact
            exact hmatch.performs_extract hseller halive
          · cases hact
            exact hmatch.performs_sweep hseller hexhausted hfits
          · cases hact

/-- One act that `Tenancy` allows is performed. -/
theorem performed_of_step (hseller : ActsFor codeHash seller a.sellerLockHash)
    (hbuyer : ActsFor codeHash buyer a.orderArgs.buyerLockHash) {t t' : Option Tenancy}
    {act : Act} {s : Option LiveCell} (hstep : Tenancy.step t act = some t')
    (h : Embodies codeHash a t s) :
    act.Performed codeHash seller buyer (Embodies codeHash a t') s := by
  cases act with
  | extract tip block => exact performed_of_extract hseller hstep h
  | update delta block =>
      cases t with
      | none => cases hstep
      | some t =>
          cases s with
          | none => exact h.elim
          | some c =>
              obtain ⟨d, hmatch, rfl⟩ := h
              rcases Tenancy.step_cases hstep with ⟨_, _, hact, -, -⟩ | ⟨_, _, hact, -, -, -⟩ |
                ⟨_, _, hact, hallows, rfl⟩
              · cases hact
              · cases hact
              · cases hact
                exact hmatch.performs_update hbuyer hallows

/-- **Plans.** Whatever plan of extractions and updates is possible for the rate, the pool and
the base of a match, builders and contract carry it out on the match, and leave what the plan
says.

Each item is built from what the reader makes of the cell the one before has left, consumes that
cell and is accepted.  A plan that ends with the sweep of an exhausted match leaves nothing of
the contract's; an item after that would not be possible. -/
theorem plan_carried_out {plan : List Act} {t : Option Tenancy} (h : CkbMatch codeHash c a d)
    (hseller : ActsFor codeHash seller a.sellerLockHash)
    (hbuyer : ActsFor codeHash buyer a.orderArgs.buyerLockHash)
    (hplan : plan.foldlM Tenancy.step (some (tenancyOf c d)) = some t) :
    Along (Act.Performed codeHash seller buyer) plan (Embodies codeHash a t) (some c) := by
  refine along_of_foldlM ?_ (fun _ _ => performed_of_step hseller hbuyer) hplan ⟨d, h, rfl⟩
  intro act P Q s hPQ hP
  exact hP.mono hPQ

/-- **Order does not matter.**  On a match whose base is stored, take two plans that are
both possible and both leave the match open (`hplan`, `hplan'`), whose tips never go back,
which pay in as much and end at the same tip.  They leave the same rate, pool and base,
however extractions and updates alternate in them: the base is the last tip, and the pool
has what was paid in, less the rent up to there.

Whether a plan is possible may well depend on its order.  With a pool of 100 and a rent of
150 due, topping up by 100 and then extracting leaves 50; extracting first closes the match,
and there is nothing left to top up. -/
theorem plans_agree {plan plan' : List Act} {t t' : Tenancy} (h : CkbMatch codeHash c a d)
    (hseller : ActsFor codeHash seller a.sellerLockHash)
    (hbuyer : ActsFor codeHash buyer a.orderArgs.buyerLockHash)
    (hstored : d.lastExtractionBlock ≠ 0)
    (hplan : plan.foldlM Tenancy.step (some (tenancyOf c d)) = some (some t))
    (hplan' : plan'.foldlM Tenancy.step (some (tenancyOf c d)) = some (some t'))
    (hsorted : (rentBase c d :: Tenancy.tips plan).Pairwise (· ≤ ·))
    (hsorted' : (rentBase c d :: Tenancy.tips plan').Pairwise (· ≤ ·))
    (hpaid : Tenancy.paid plan = Tenancy.paid plan')
    (hlast : (Tenancy.tips plan).getLast? = (Tenancy.tips plan').getLast?) :
    Along (Act.Performed codeHash seller buyer) plan (Embodies codeHash a (some t)) (some c) ∧
      Along (Act.Performed codeHash seller buyer) plan' (Embodies codeHash a (some t)) (some c) ∧
      t.base = (Tenancy.tips plan).getLastD (rentBase c d) ∧
      (t.pool : ℤ) + rentAt c d t.base = c.unoccupied + Tenancy.paid plan := by
  have hbase : rentBase c d = d.lastExtractionBlock.toNat := if_neg hstored
  have hpos : 0 < rentBase c d := by
    rw [hbase]
    exact Nat.pos_of_ne_zero fun h0 => hstored (BitVec.eq_of_toNat_eq h0)
  have hsettles := Tenancy.settles_of_plan hplan (decide_eq_true hstored) hpos hsorted
  have hsettles' := Tenancy.settles_of_plan hplan' (decide_eq_true hstored) hpos hsorted'
  obtain rfl : t = t' := hsettles.unique hsettles' hpaid hlast
  exact ⟨plan_carried_out h hseller hbuyer hplan, plan_carried_out h hseller hbuyer hplan',
    hsettles.base, hsettles.pool⟩

end Plan

/-! ## In the market -/

namespace Market

theorem ckbMatch_matchCell {d : MatchData} {pool index block : ℕ} :
    CkbMatch codeHash (matchCell d none pool index block).toLiveCell matchArgs d where
  lock := isOpticrumLock_matchCell
  plain := rfl
  decodes := isMatch_matchOutput
  canonical := by
    have hdata : (matchCell d none pool index block).data = _ := matchOutput_data
    rw [hdata, Vector.length_toList]
  parties := sellerLockHash_ne_buyerLockHash.symm
  notBuyer := calcScriptHash_matchLock_ne.2
  notSeller := calcScriptHash_matchLock_ne.1

theorem actsFor_buyer : ActsFor codeHash ⟨buyerLock⟩ buyerLockHash :=
  ⟨calcScriptHash_buyerLock, by decide⟩

theorem tenancyOf_matchCell {d : MatchData} {pool index block : ℕ}
    (hpool : oneCkb * 206 + pool < 2 ^ 64) (hblock : block < 2 ^ 64) :
    tenancyOf (matchCell d none pool index block).toLiveCell d =
      ⟨d.shannonsPerBlock.toNat, pool,
        if d.lastExtractionBlock = 0 then block else d.lastExtractionBlock.toNat,
        d.lastExtractionBlock ≠ 0⟩ := by
  have hunoccupied : (matchCell d none pool index block).unoccupied = pool :=
    matchCell_unoccupied hpool
  rw [tenancyOf, rentBase, matchCell_block hblock, hunoccupied]

/-- The match with a pool of 100000 shannons at a rate of 3, created at block 1000:
the seller extracts twice, the buyer pays in 5000 and takes out 50000, and at block
20000 the seller sweeps what is left. -/
def lease : List Act :=
  [.extract 1100 1101, .update 5000 1150, .extract 1200 1201,
    .update (BitVec.ofInt 64 (-50000)) 1300, .extract 20000 20001]

theorem lease_carried_out :
    Along (Act.Performed codeHash ⟨sellerLock⟩ ⟨buyerLock⟩) lease
      (Embodies codeHash matchArgs none) (some running.toLiveCell) := by
  refine plan_carried_out (d := ⟨0, 3, 0⟩) ckbMatch_matchCell actsFor_seller actsFor_buyer ?_
  rw [show running = matchCell ⟨0, 3, 0⟩ none 100000 0 1000 from rfl,
    tenancyOf_matchCell (by decide) (by decide)]
  decide

/-- A match last extracted at block 1000. -/
def settledOnce : MatchCell := matchCell ⟨0, 3, 1000⟩ none 100000 0 1001

/-- Topping up by 5000 before or after the extractions, or between them, comes to the
same. -/
theorem lease_reordered :
    let early : List Act := [.update 5000 1050, .extract 1100 1101, .extract 1200 1201]
    let late : List Act := [.extract 1200 1201, .update 2000 1300, .update 3000 1400]
    let left := Embodies codeHash matchArgs (some ⟨3, 104400, 1200, true⟩)
    Along (Act.Performed codeHash ⟨sellerLock⟩ ⟨buyerLock⟩) early left
        (some settledOnce.toLiveCell) ∧
      Along (Act.Performed codeHash ⟨sellerLock⟩ ⟨buyerLock⟩) late left
        (some settledOnce.toLiveCell) := by
  intro early late left
  have hstart : tenancyOf settledOnce.toLiveCell ⟨0, 3, 1000⟩ = ⟨3, 100000, 1000, true⟩ :=
    tenancyOf_matchCell (by decide) (by decide)
  have hbase : rentBase settledOnce.toLiveCell ⟨0, 3, 1000⟩ = 1000 := rfl
  have hearly : early.foldlM Tenancy.step (some (tenancyOf settledOnce.toLiveCell ⟨0, 3, 1000⟩)) =
      some (some ⟨3, 104400, 1200, true⟩) := by
    rw [hstart]
    decide
  have hlate : late.foldlM Tenancy.step (some (tenancyOf settledOnce.toLiveCell ⟨0, 3, 1000⟩)) =
      some (some ⟨3, 104400, 1200, true⟩) := by
    rw [hstart]
    decide
  have hmatch : CkbMatch codeHash settledOnce.toLiveCell matchArgs ⟨0, 3, 1000⟩ :=
    ckbMatch_matchCell
  have hagree := plans_agree hmatch actsFor_seller actsFor_buyer (by decide) hearly hlate
    (by rw [hbase]; decide) (by rw [hbase]; decide) (by decide) (by decide)
  exact ⟨hagree.1, hagree.2.1⟩

end Market

end Opticrum
