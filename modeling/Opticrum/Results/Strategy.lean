import Opticrum.Results.Ledger
import Opticrum.Results.Plan

/-!
# What the parties can get out of a match

The laws of the ledger bound what any run can take from a match for capacity, and the
plans say what the builders can have accepted.  Side by side they settle what a party
can get.

* `extraction_is_best` — without setting the rent base back, nothing takes more by a
  given block than one extraction there does.
* `backdating_empties` — that proviso is what keeps the pool: the seller alone closes any
  match, however large its pool and however young it is, showing no headers but those of
  the blocks 1 and 2.
* `withdrawal_goes_first` — the rent that has run up is the seller's only once extracted:
  the buyer alone can take out the whole pool and leave the match open and empty, and what
  any run takes after that has been paid in after that.

## How it is proved

The bounds hold for every run, and are entries of the ledger: what is taken is at most what was
there and paid in, and at most the rent of the blocks paid for.  That they are reached is a
statement about builders, and comes from the acts of `Opticrum.Results.Plan`.

For the backdating the tips come from `Tenancy.exists_drained`, which is about numbers only: a
rewind to block 1, then block 2, as often as the pool needs.
-/

namespace Opticrum

open Rust Ckb TransitionSystem

section Strategy

variable [ScriptHash] {codeHash : Byte32} {seller buyer : Address} {c : LiveCell}
  {a : MatchArgs} {d : MatchData}

/-- What an extraction leaves in the pool. -/
theorem CkbMatch.extraction_takes (h : CkbMatch codeHash c a d)
    (hseller : ActsFor codeHash seller a.sellerLockHash) {tip block : U64}
    (hfits : rentAt c d tip.toNat < 2 ^ 64) :
    (Act.extract tip block).Performed codeHash seller buyer
      (fun s => poolOf s + min c.unoccupied (rentAt c d tip.toNat) = c.unoccupied) (some c) := by
  by_cases halive : rentAt c d tip.toNat < c.unoccupied
  · refine (h.performs_extract hseller halive).mono fun s hs => ?_
    cases s with
    | none => exact hs.elim
    | some c' =>
        obtain ⟨d', -, hleft⟩ := hs
        have hpool : c'.unoccupied = c.unoccupied - rentAt c d tip.toNat :=
          congrArg Tenancy.pool hleft
        rw [poolOf, hpool, Nat.min_eq_right halive.le, Nat.sub_add_cancel halive.le]
  · have hexhausted : c.unoccupied ≤ rentAt c d tip.toNat := Nat.le_of_not_lt halive
    refine (h.performs_sweep hseller hexhausted hfits).mono fun s hs => ?_
    cases s with
    | none => rw [poolOf, Nat.min_eq_left hexhausted, Nat.zero_add]
    | some c' => exact hs.elim

/-- **One extraction is best.** In every run of a match for capacity that does not set the rent
base back and is paid for no block after `tip`, whoever acts, the seller takes no more than the
pool and what is paid in, and no more than the rent up to `tip`.  One extraction at `tip` takes
the smaller of pool and rent.

The bound is read off the ledger of the run, and the extraction is the builder's.  Extracting
more often takes no more; what it does is to leave less for the buyer to withdraw. -/
theorem extraction_is_best (h : CkbMatch codeHash c a d)
    (hseller : ActsFor codeHash seller a.sellerLockHash) {tip block : U64}
    (hfits : rentAt c d tip.toNat < 2 ^ 64) :
    (∀ {moves s}, Run (Step codeHash) (some c) moves s → (∀ m ∈ moves, rewoundBlocks m = 0) →
        latestPaid moves ≤ tip.toNat →
          (totalTaken moves : ℤ) ≤
            min (c.unoccupied + totalPaidIn moves) (rentAt c d tip.toNat)) ∧
      (Act.extract tip block).Performed codeHash seller buyer
        (fun s => poolOf s + min c.unoccupied (rentAt c d tip.toNat) = c.unoccupied)
        (some c) := by
  refine ⟨fun {moves s} run hkept hlatest => ?_, h.extraction_takes hseller hfits⟩
  obtain ⟨mc, rfl, rfl⟩ : ∃ mc : MatchCell, mc.toLiveCell = c ∧ mc.matchData = d :=
    ⟨⟨c, a, d, h.decodes⟩, rfl, rfl⟩
  have hbalance := pool_add_taken h.plain run
  have hfee := totalTaken_le_latest h.plain run
  have hrewound : totalRewound moves = 0 :=
    List.sum_eq_zero fun n hn => by
      obtain ⟨m, hm, rfl⟩ := List.mem_map.mp hn
      exact hkept m hm
  rw [hrewound, Nat.add_zero, h.decodes.baseOf_eq] at hfee
  have hrent : totalTaken moves ≤ rentAt mc.toLiveCell mc.matchData tip.toNat :=
    hfee.trans (Nat.mul_le_mul_left _ (Nat.sub_le_sub_right hlatest _))
  exact le_min (by omega) (by exact_mod_cast hrent)

/-- **Backdating empties a match.** For every match for capacity with a rate there are tips, all
of them block 1 or block 2, such that the extractions at these tips, whatever blocks commit
them, are built and accepted one after the other and close the match.

Block 1 sets the base back for free, and block 2 takes the rent of one block.  In turn they take
the pool down to what one block's rent covers, and the last extraction sweeps it. -/
theorem backdating_empties (h : CkbMatch codeHash c a d)
    (hseller : ActsFor codeHash seller a.sellerLockHash) (hrate : d.shannonsPerBlock ≠ 0) :
    ∃ tips : List U64, (∀ tip ∈ tips, tip = 1 ∨ tip = 2) ∧
      ∀ blocks : List U64, blocks.length = tips.length →
        Along (Act.Performed codeHash seller buyer) (List.zipWith Act.extract tips blocks)
          (Embodies codeHash a none) (some c) := by
  have hpos : 0 < (tenancyOf c d).rate :=
    Nat.pos_of_ne_zero fun h0 => hrate (BitVec.eq_of_toNat_eq h0)
  obtain ⟨tips, htips, hdrained⟩ := Tenancy.exists_drained hpos d.shannonsPerBlock.isLt
  refine ⟨tips, htips, fun blocks hlength => ?_⟩
  have hstart : Embodies codeHash a (some (tenancyOf c d)) (some c) := ⟨d, h, rfl⟩
  refine along_of_foldlM ?_ ?_ (hdrained blocks hlength) hstart
  · intro act P Q s hPQ hP
    exact hP.mono hPQ
  intro act hact t t' s hstep hs
  obtain ⟨tip, block, rfl⟩ : ∃ tip block, act = .extract tip block := by
    rw [← List.map_uncurry_zip_eq_zipWith, List.mem_map] at hact
    obtain ⟨⟨tip, block⟩, -, rfl⟩ := hact
    exact ⟨tip, block, rfl⟩
  exact performed_of_extract hseller hstep hs

/-- **Withdrawing first.** In every state of a match for capacity, and whatever rent has run up,
the buyer's builder lists an accepted update that takes out the whole pool: it leaves the match
open, at the same rate, with an empty pool.  From there every run takes no more than what is
paid into it.

The buyer's side of an update is not asked for the rent that is due.  A pool of `2 ^ 63`
shannons or more cannot be named as an amount of his, which has a sign. -/
theorem withdrawal_goes_first (h : CkbMatch codeHash c a d)
    (hbuyer : ActsFor codeHash buyer a.orderArgs.buyerLockHash) (hpool : c.unoccupied < 2 ^ 63)
    {block : U64} :
    (Act.update (BitVec.ofInt 64 (-c.unoccupied)) block).Performed codeHash seller buyer
      (fun s => ∃ c' d', s = some c' ∧ CkbMatch codeHash c' a d' ∧
        d'.shannonsPerBlock = d.shannonsPerBlock ∧ c'.unoccupied = 0 ∧
        ∀ {moves s'}, Run (Step codeHash) (some c') moves s' →
          (totalTaken moves : ℤ) ≤ totalPaidIn moves) (some c) := by
  -- the pool is below 2⁶³, so its negative is a signed word
  have hdelta : (BitVec.ofInt 64 (-c.unoccupied)).toInt = -c.unoccupied := by
    rw [BitVec.toInt_ofInt, Int.bmod_def]
    omega
  have hsum : ((tenancyOf c d).pool : ℤ) + (BitVec.ofInt 64 (-c.unoccupied)).toInt = 0 := by
    rw [hdelta]
    exact add_neg_cancel _
  have hallows : (tenancyOf c d).Allows (BitVec.ofInt 64 (-c.unoccupied)) := by
    refine ⟨fun hmin => ?_, hsum.ge, ?_⟩
    · rw [hmin] at hdelta
      have hbound : (BitVec.intMin 64).toInt = -2 ^ 63 := by decide
      omega
    · rw [add_assoc, hsum]
      decide
  refine (h.performs_update hbuyer hallows).mono fun s hs => ?_
  cases s with
  | none => exact hs.elim
  | some c' =>
      obtain ⟨d', hmatch, hleft⟩ := hs
      have hempty : c'.unoccupied = 0 := by
        have hpool' : c'.unoccupied = _ := congrArg Tenancy.pool hleft
        rw [hpool', Tenancy.updated, hsum, Int.toNat_zero]
      have hrate : d'.shannonsPerBlock = d.shannonsPerBlock :=
        BitVec.eq_of_toNat_eq (congrArg Tenancy.rate hleft)
      refine ⟨c', d', rfl, hmatch, hrate, hempty, fun {moves s'} run => ?_⟩
      -- the ledger of a match that starts with nothing
      have hbalance := pool_add_taken (c := ⟨c', a, d', hmatch.decodes⟩) hmatch.plain run
      rw [hempty] at hbalance
      omega

end Strategy

/-! ## In the market -/

namespace Market

/-- The seller of the running match, up to block 1100: 300 shannons, and one extraction takes
them. -/
theorem running_best :
    (∀ {moves s}, Run (Step codeHash) (some running.toLiveCell) moves s →
        (∀ m ∈ moves, rewoundBlocks m = 0) → latestPaid moves ≤ (1100 : U64).toNat →
          (totalTaken moves : ℤ) ≤ min (running.unoccupied + totalPaidIn moves)
            (rentAt running.toLiveCell ⟨0, 3, 0⟩ (1100 : U64).toNat)) ∧
      (Act.extract 1100 1101).Performed codeHash ⟨sellerLock⟩ ⟨buyerLock⟩
        (fun s => poolOf s + min running.unoccupied
          (rentAt running.toLiveCell ⟨0, 3, 0⟩ (1100 : U64).toNat) = running.unoccupied)
        (some running.toLiveCell) := by
  refine extraction_is_best (a := matchArgs) ckbMatch_matchCell actsFor_seller ?_
  rw [matchCell_rentAt (by decide)]
  decide

/-- He can also have all of it, by showing blocks 1 and 2 in turn. -/
theorem running_emptied :
    ∃ tips : List U64, (∀ tip ∈ tips, tip = 1 ∨ tip = 2) ∧
      ∀ blocks : List U64, blocks.length = tips.length →
        Along (Act.Performed codeHash ⟨sellerLock⟩ ⟨buyerLock⟩)
          (List.zipWith Act.extract tips blocks) (Embodies codeHash matchArgs none)
          (some running.toLiveCell) :=
  backdating_empties (d := ⟨0, 3, 0⟩) ckbMatch_matchCell actsFor_seller (by decide)

/-- Unless the buyer takes the pool out first, in block 1200. -/
theorem running_withdrawn :
    (Act.update (BitVec.ofInt 64 (-running.unoccupied)) 1200).Performed codeHash ⟨sellerLock⟩
      ⟨buyerLock⟩
      (fun s => ∃ c' d', s = some c' ∧ CkbMatch codeHash c' matchArgs d' ∧
        d'.shannonsPerBlock = 3 ∧ c'.unoccupied = 0 ∧
        ∀ {moves s'}, Run (Step codeHash) (some c') moves s' →
          (totalTaken moves : ℤ) ≤ totalPaidIn moves) (some running.toLiveCell) := by
  refine withdrawal_goes_first (a := matchArgs) (d := ⟨0, 3, 0⟩) ckbMatch_matchCell actsFor_buyer ?_
  exact (matchCell_unoccupied (by decide)).trans_lt (by decide)

end Market

end Opticrum
