import Opticrum.Results.Builders

/-!
# Extraction schedules

A seller may extract often or rarely.  Every extraction moves the clock of the
match to its tip and takes the rent since the last one, so the rents of a schedule
telescope: for a match without tokens whose pool outlasts the last tip, only that
tip counts.

## The schedule as a run

`Extracts` is one extraction: the cell is read, the builder lists an instruction,
and whatever transaction it becomes the first instruction of, on whatever node the
cell is live, spends the cell and is accepted by the contract.  `ExtractsAlong` repeats
it along a list of tips, the cell of the next step being the output of the last one,
committed in any block.

## How it is proved

`CkbMatch.extracts` is one extraction on a match that outlasts it: the output carries the same
args, the data with the new clock and no tokens, and the pool less the rent.  The next cell is
again a match of that kind, with the tip as its base, so `rentAt_add_rentAt` adds the two rents
up to one.  `CkbMatch.extractsAlong` is the induction on the tips, with the bound on the last
one carried along.

The base has to be positive.  A tip of zero would be stored as the block zero, which reads as no
extraction at all, and the base would be the block of the new cell.
-/

namespace Opticrum

open Rust Ckb

section Schedule

variable [ScriptHash]

/-- A match for capacity: it holds no tokens, its data has 32 bytes, its parties
differ, and neither is the match itself. -/
structure CkbMatch (codeHash : Byte32) (c : LiveCell) (a : MatchArgs) (d : MatchData) :
    Prop where
  lock : isOpticrumLock codeHash c.lock = true
  plain : c.type_ = none
  decodes : IsMatch c.toCell a d
  canonical : c.data.length = matchDataLen
  parties : a.orderArgs.buyerLockHash ≠ a.sellerLockHash
  notBuyer : calcScriptHash c.lock ≠ a.orderArgs.buyerLockHash
  notSeller : calcScriptHash c.lock ≠ a.sellerLockHash

/-- The extraction of `c` at `tip` is read, built and accepted: it spends `c`, leaves a
cell in its place, and `result` holds of that cell, in whatever block it is
committed. -/
def Extracts (codeHash : Byte32) (seller : Address) (tip : U64) (result : LiveCell → Prop)
    (c : LiveCell) : Prop :=
  ∃ info, parseMatchCell c = .ok info ∧
    ∀ rpc runBasic, Documented rpc runBasic → rpc.codeHash opticrumContractName = codeHash →
      rpc.Live c →
        Passes rpc runBasic [info.matchArgs.orderArgs.buyerLockHash] (extractRent seller info tip) c
          (fun o? => ∃ o, o? = some o ∧ ∀ c' : LiveCell, c'.toCell = o → result c')

/-- The extractions at these tips, one after the other. -/
def ExtractsAlong (codeHash : Byte32) (seller : Address) (result : LiveCell → Prop) :
    List U64 → LiveCell → Prop
  | [] => result
  | tip :: tips => Extracts codeHash seller tip (ExtractsAlong codeHash seller result tips)

variable {codeHash : Byte32} {seller : Address} {a : MatchArgs} {d : MatchData}
  {c : LiveCell} {tip : U64}

theorem Extracts.mono {result result' : LiveCell → Prop}
    (h : Extracts codeHash seller tip result c) (hresult : ∀ c', result c' → result' c') :
    Extracts codeHash seller tip result' c := by
  obtain ⟨info, hparsed, hpasses⟩ := h
  refine ⟨info, hparsed, fun rpc runBasic doc hcode hlive => ?_⟩
  refine (hpasses rpc runBasic doc hcode hlive).mono ?_
  rintro o? ⟨o, ho, hleft⟩
  exact ⟨o, ho, fun c' hc' => hresult c' (hleft c' hc')⟩

/-! ### One extraction -/

/-- The data an extraction at `tip` leaves. -/
def MatchData.extractedAt (d : MatchData) (tip : U64) : MatchData :=
  { d with lastExtractionBlock := tip, xudtAmount := 0 }

/-- `c'` is what is left of `c` after extractions up to `tip`: the terms are those of
`c`, the clock is the tip, and the rent since the base is gone from the pool. -/
structure LeftAt (codeHash : Byte32) (c : LiveCell) (a : MatchArgs) (d : MatchData) (tip : U64)
    (c' : LiveCell) : Prop where
  isMatch : CkbMatch codeHash c' a (d.extractedAt tip)
  pool : c'.unoccupied + rentAt c d tip.toNat = c.unoccupied

/-- A live match without tokens is a match for capacity. -/
theorem LiveMatch.ckbMatch {rpc : RPC} {info : MatchInfo} (h : LiveMatch rpc c info) :
    CkbMatch (rpc.codeHash opticrumContractName) c info.matchArgs info.matchData where
  lock := h.lock
  plain := h.plain
  decodes := h.infoOf.decodes
  canonical := h.canonical
  parties := h.parties
  notBuyer := h.notBuyer
  notSeller := h.notSeller

/-- Where it is live, it can be read and built on. -/
theorem CkbMatch.liveMatch {rpc : RPC} {info : MatchInfo}
    (h : CkbMatch (rpc.codeHash opticrumContractName) c info.matchArgs info.matchData)
    (hlive : rpc.Live c) (hinfo : MatchInfoOf c info) : LiveMatch rpc c info where
  live := hlive
  lock := h.lock
  plain := h.plain
  parsed := parseMatchCell_eq_ok_iff.mpr hinfo
  canonical := h.canonical
  parties := h.parties
  notBuyer := h.notBuyer
  notSeller := h.notSeller

theorem CkbMatch.fits (h : CkbMatch codeHash c a d) : c.occupied < 2 ^ 64 := by
  rw [h.decodes.occupied_eq h.canonical, h.plain]
  decide

/-- A copy with new data of 32 bytes is a match for capacity again. -/
theorem CkbMatch.copy (h : CkbMatch codeHash c a d) {adjust : CapacityAdjustment}
    {d' : MatchData} {c' : LiveCell}
    (hcopy : CopyOf c.toCell adjust c.lock d'.toBytes.toList c'.toCell) :
    CkbMatch codeHash c' a d' where
  lock := by rw [hcopy.lock, h.lock]
  plain := by rw [hcopy.type_, h.plain]
  decodes := isMatch_of_toBytes (by rw [hcopy.lock, h.decodes.args_eq]) hcopy.data
  canonical := by rw [hcopy.data, Vector.length_toList]
  parties := h.parties
  notBuyer := by rw [hcopy.lock]; exact h.notBuyer
  notSeller := by rw [hcopy.lock]; exact h.notSeller

/-- **One extraction.**  While the rent is below the pool it is taken, and nothing
else. -/
theorem CkbMatch.extracts (h : CkbMatch codeHash c a d)
    (hseller : ActsFor codeHash seller a.sellerLockHash)
    (hbelow : rentAt c d tip.toNat < c.unoccupied) :
    Extracts codeHash seller tip (LeftAt codeHash c a d tip) c := by
  have hfits : rentAt c d tip.toNat < 2 ^ 64 :=
    hbelow.trans (lt_of_le_of_lt (Nat.sub_le _ _) c.capacity.isLt)
  obtain ⟨info, hinfo, rfl, rfl⟩ := exists_matchInfoOf h.decodes h.fits
  have hvalue : valueOf c.toCell = c.unoccupied := valueOf_of_type_none h.decodes h.plain
  have halive : (info.isExhausted tip : Outcome Empty Bool) = .ok false := by
    rw [hinfo.isExhausted_eq_ok_iff]
    exact ⟨hfits, by simp [hvalue, hbelow]⟩
  refine ⟨info, parseMatchCell_eq_ok_iff.mpr hinfo, fun rpc runBasic doc hcode hlive => ?_⟩
  subst hcode
  refine ((h.liveMatch hlive hinfo).extract_copies doc hseller halive).mono ?_
  rintro o? ⟨o, rent, ho, hrent, hpool, hcopy⟩
  refine ⟨o, ho, ?_⟩
  rintro c' rfl
  have hrentEq : rent.toNat = rentAt c info.matchData tip.toNat :=
    (hinfo.extractionAmount_eq_ok_iff.mp hrent).symm
  exact ⟨h.copy hcopy, by rw [← hrentEq, hpool]⟩

/-! ### A schedule -/

omit [ScriptHash] in
/-- A tip that is stored is the base of what follows. -/
theorem rentBase_extractedAt (c : LiveCell) (d : MatchData) (hpos : 0 < tip.toNat) :
    rentBase c (d.extractedAt tip) = tip.toNat := by
  have hstored : tip ≠ 0 := by
    rintro rfl
    exact absurd hpos (by decide)
  exact if_neg hstored

omit [ScriptHash] in
/-- The rent telescopes: up to the tip of a step, and from there on. -/
theorem rentAt_add_rentAt (c' : LiveCell) {last : ℕ} (hpos : 0 < rentBase c d)
    (hbase : rentBase c d ≤ tip.toNat) (hlast : tip.toNat ≤ last) :
    rentAt c d tip.toNat + rentAt c' (d.extractedAt tip) last = rentAt c d last := by
  have hsplit : tip.toNat - rentBase c d + (last - tip.toNat) = last - rentBase c d := by omega
  calc rentAt c d tip.toNat + rentAt c' (d.extractedAt tip) last
      = d.shannonsPerBlock.toNat * (tip.toNat - rentBase c d) +
          d.shannonsPerBlock.toNat * (last - tip.toNat) := by
        rw [rentAt, rentAt, rentBase_extractedAt c' d (hpos.trans_le hbase), MatchData.extractedAt]
    _ = d.shannonsPerBlock.toNat * (last - rentBase c d) := by
        rw [← Nat.mul_add, hsplit]
    _ = rentAt c d last := rfl

theorem ExtractsAlong.mono {result result' : LiveCell → Prop} {tips : List U64}
    (h : ExtractsAlong codeHash seller result tips c) (hresult : ∀ c', result c' → result' c') :
    ExtractsAlong codeHash seller result' tips c := by
  induction tips generalizing c with
  | nil => exact hresult c h
  | cons tip tips ih => exact Extracts.mono h fun c' hc' => ih hc'

/-- A schedule leaves what its last tip leaves.  The induction is on the tips before
it; after a step the base is the tip of that step. -/
theorem CkbMatch.extractsAlong {tips : List U64} {last : U64} (h : CkbMatch codeHash c a d)
    (hseller : ActsFor codeHash seller a.sellerLockHash) (hpos : 0 < rentBase c d)
    (hsorted : (rentBase c d :: (tips ++ [last]).map BitVec.toNat).Pairwise (· ≤ ·))
    (hbelow : rentAt c d last.toNat < c.unoccupied) :
    ExtractsAlong codeHash seller (LeftAt codeHash c a d last) (tips ++ [last]) c := by
  induction tips generalizing c d with
  | nil => exact h.extracts hseller hbelow
  | cons tip tips ih =>
      obtain ⟨hfrom, hrest⟩ := List.pairwise_cons.mp hsorted
      have hbase : rentBase c d ≤ tip.toNat := hfrom _ List.mem_cons_self
      have hlast : tip.toNat ≤ last.toNat :=
        (List.pairwise_cons.mp hrest).1 _ (List.mem_map_of_mem (by simp))
      -- the rent of the step, and of the steps after it
      have hsum (c' : LiveCell) := rentAt_add_rentAt c' hpos hbase hlast
      have hstep : Extracts codeHash seller tip (LeftAt codeHash c a d tip) c :=
        h.extracts hseller (by have := hsum c; omega)
      refine hstep.mono fun c' hleft => ?_
      have hnewBase := rentBase_extractedAt c' d (hpos.trans_le hbase)
      have hnewBelow : rentAt c' (d.extractedAt tip) last.toNat < c'.unoccupied := by
        have hnewSum := hsum c'
        have hpool := hleft.pool
        omega
      refine (ih hleft.isMatch ?_ ?_ hnewBelow).mono fun c'' hleft' => ⟨hleft'.isMatch, ?_⟩
      · rw [hnewBase]
        exact hpos.trans_le hbase
      · rw [hnewBase]
        exact hrest
      · rw [← hleft.pool, ← hleft'.pool, ← hsum c']
        omega

/-- **Schedule independence.** Extracting along a schedule, and extracting once at its last tip,
are accepted at every step and leave the same: the same args, the same data, and the pool less
the rent up to the last tip.

The rents of the steps telescope, as each of them starts where the one before has set the base.
Tips that repeat cost nothing. -/
theorem extraction_schedule_independent (tips : List U64) {last : U64}
    (h : CkbMatch codeHash c a d) (hseller : ActsFor codeHash seller a.sellerLockHash)
    (hpos : 1 ≤ rentBase c d)
    (hsorted : (rentBase c d :: (tips ++ [last]).map BitVec.toNat).Pairwise (· ≤ ·))
    (hbelow : d.shannonsPerBlock.toNat * (last.toNat - rentBase c d) < c.unoccupied) :
    ExtractsAlong codeHash seller (LeftAt codeHash c a d last) (tips ++ [last]) c ∧
      ExtractsAlong codeHash seller (LeftAt codeHash c a d last) [last] c :=
  ⟨h.extractsAlong hseller hpos hsorted hbelow, h.extracts hseller hbelow⟩

end Schedule

/-! ## In the market -/

namespace Market

/-- Of the match created at block 1000, extractions at 1100, 1100 and 1250 leave what
one at 1250 leaves. -/
theorem running_schedule :
    let left := LeftAt codeHash running.toLiveCell matchArgs ⟨0, 3, 0⟩ 1250
    ExtractsAlong codeHash ⟨sellerLock⟩ left [1100, 1100, 1250] running.toLiveCell ∧
      ExtractsAlong codeHash ⟨sellerLock⟩ left [1250] running.toLiveCell := by
  have hbase : rentBase running.toLiveCell ⟨0, 3, 0⟩ = 1000 := rfl
  refine extraction_schedule_independent [1100, 1100] liveMatch_running.ckbMatch actsFor_seller
    ?_ ?_ ?_
  · rw [hbase]
    decide
  · rw [hbase]
    decide
  · have hpool : running.unoccupied = 100000 := matchCell_unoccupied (by decide)
    rw [hbase, hpool]
    decide

end Market

end Opticrum
