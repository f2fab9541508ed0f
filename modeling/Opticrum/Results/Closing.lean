import Opticrum.Results.Lease

/-!
# Who can close an escrow

Together the parties always can.  Alone, the buyer never does: what closes a match is a
sweep, and a sweep is the seller's.  `seller_closes_iff` is about the seller alone.  With
any rate he gets the pool sooner or later, turning the clock back as often as it takes;
without a rate he gets nothing out, and what the match occupies stays with it until the
buyer has emptied the pool.  Nothing in the contract or in the builders asks for a rate.

## The machine first

Closing is a question about four numbers, so it is settled on `Lease.Step` and carried over by
the two step lemmas behind `lease_traces`.

* With a rate, the seller rewinds: an extraction that shows a block before the base takes
  nothing and sets the clock there.  Two early blocks shown in turn then pay one block each
  time, and the pool comes down by the rate until the rest is exhausted,
  `closes_of_rewound`.
* Without a rate the rent is zero at any tip, and `pool_pos_of_run` is the invariant: a pool
  that is not empty stays so under the seller's moves.

What makes the moves of a run the seller's is that the buyer does not sign; a move of the
machine that the buyer alone can make is an update.
-/

namespace Opticrum

open Rust Ckb TransitionSystem

/-! ## The machine -/

namespace Lease

/-- `t` is closed by extractions and a sweep. -/
def SellerCloses (t : Lease) : Prop :=
  ∃ moves, Run Step (some t) moves none ∧ ∀ m ∈ moves, m.label ≠ .update

variable {t t' : Lease}

theorem SellerCloses.of_sweep {tip : ℕ} (h : Step (some t) (.sweep tip) none) :
    t.SellerCloses := by
  refine ⟨_, .single h, fun m hm => ?_⟩
  obtain rfl := List.mem_singleton.mp hm
  exact Event.noConfusion

theorem SellerCloses.of_extract {tip : ℕ} (h : Step (some t) (.extract tip) (some t'))
    (h' : t'.SellerCloses) : t.SellerCloses := by
  obtain ⟨moves, run, hmoves⟩ := h'
  exact ⟨_, .cons h run, List.forall_mem_cons.mpr ⟨Event.noConfusion, hmoves⟩⟩

/-- An extraction that shows a block up to the base sets the clock, at no rent. -/
theorem step_rewind (follows : t'.Follows t) (shown : t'.last ≤ t'.block)
    (hbase : t'.last ≤ t.base) (hpos : 0 < t.pool) (hpool : t'.pool = t.pool) :
    Step (some t) (.extract t'.last) (some t') := by
  have hfree : t.rent t'.last = 0 := rent_of_le hbase
  refine .extract follows shown ?_ ?_
  · rwa [hfree]
  · rw [hfree, hpool, Nat.sub_self]

/-- With the clock at block 1, the pool is taken block by block, each time for the rent of
block 2. -/
theorem closes_of_rewound {rate block : ℕ} (hrate : 0 < rate) (hfits : rate < 2 ^ 64)
    (hblock : 2 ≤ block) (hdated : block < 2 ^ 64) (pool : ℕ)
    (hpool : tenancyOccupied + pool < 2 ^ 64) : (⟨rate, pool, 1, block⟩ : Lease).SellerCloses := by
  have hrent : (⟨rate, pool, 1, block⟩ : Lease).rent 2 = rate := Nat.mul_one rate
  by_cases hexhausted : pool ≤ rate
  · have hsweep : Step (some ⟨rate, pool, 1, block⟩) (.sweep 2) none :=
      .sweep (by decide) (hexhausted.trans hrent.ge) (hrent.trans_lt hfits)
    exact .of_sweep hsweep
  have hleft : tenancyOccupied + (pool - rate) < 2 ^ 64 := by omega
  have htake : Step (some ⟨rate, pool, 1, block⟩) (.extract 2)
      (some ⟨rate, pool - rate, 2, block⟩) := by
    have follows : Follows ⟨rate, pool - rate, 2, block⟩ ⟨rate, pool, 1, block⟩ :=
      ⟨rfl, le_rfl, hdated, hleft⟩
    refine .extract follows hblock ?_ ?_
    · exact hrent.trans_lt (Nat.lt_of_not_le hexhausted)
    · exact (Nat.sub_sub_self (Nat.le_of_not_le hexhausted)).trans hrent.symm
  have hback : Step (some ⟨rate, pool - rate, 2, block⟩) (.extract 1)
      (some ⟨rate, pool - rate, 1, block⟩) := by
    have follows : Follows ⟨rate, pool - rate, 1, block⟩ ⟨rate, pool - rate, 2, block⟩ :=
      ⟨rfl, le_rfl, hdated, hleft⟩
    have hshown : 1 ≤ block := by omega
    exact step_rewind follows hshown (by decide : 1 ≤ 2) (Nat.sub_pos_of_lt (by omega)) rfl
  exact .of_extract htake (.of_extract hback
    (closes_of_rewound hrate hfits hblock hdated (pool - rate) hleft))
termination_by pool
decreasing_by omega

/-- Without a rate no move of the seller empties a pool. -/
theorem pool_pos_of_run {moves : List (Move (Option Lease) Event)} {l : Option Lease}
    (run : Run Step (some t) moves l) (hmoves : ∀ m ∈ moves, m.label ≠ .update)
    (hrate : t.rate = 0) (hpos : 0 < t.pool) : ∃ t', l = some t' ∧ t'.rate = 0 ∧ 0 < t'.pool := by
  refine (run.restrict hmoves).invariant
    (I := fun l => ∃ t', l = some t' ∧ t'.rate = 0 ∧ 0 < t'.pool) ?_ ⟨t, rfl, hrate, hpos⟩
  rintro _ event l' ⟨step, hne⟩ ⟨t, rfl, hrate, hpos⟩
  have hfree : ∀ tip, t.rent tip = 0 := fun tip => by rw [rent, hrate, Nat.zero_mul]
  cases step with
  | @extract _ t' follows shown alive exact =>
      rw [hfree] at exact
      exact ⟨t', rfl, follows.rate.trans hrate, by omega⟩
  | update => exact absurd rfl hne
  | sweep dated exhausted =>
      rw [hfree] at exhausted
      omega

/-- The seller closes what has a rate, and what has no pool. -/
theorem sellerCloses_iff (h : t.Follows t) (hfits : t.rate < 2 ^ 64) :
    t.SellerCloses ↔ 0 < t.rate ∨ t.pool = 0 := by
  constructor
  · rintro ⟨moves, run, hmoves⟩
    by_contra hnot
    push Not at hnot
    obtain ⟨hrate, hpool⟩ := hnot
    obtain ⟨t', hnone, -⟩ := pool_pos_of_run run hmoves (by omega) (by omega)
    cases hnone
  · intro hcloses
    rcases Nat.eq_zero_or_pos t.pool with hempty | hpos
    · have hfree : t.rent 0 = 0 := rent_of_le (Nat.zero_le _)
      have hsweep : Step (some t) (.sweep 0) none := by
        refine .sweep (by decide) ?_ ?_
        · rw [hempty]
          exact Nat.zero_le _
        · rw [hfree]
          decide
      exact .of_sweep hsweep
    have hrate : 0 < t.rate := by omega
    -- back to zero first, which is the block of a cell from block 2 on, then to block 1
    have hzero : Follows ⟨t.rate, t.pool, 0, max 2 t.block⟩ t :=
      ⟨rfl, le_max_right _ _, max_lt (by decide) h.dated, h.fits⟩
    have hone : Follows ⟨t.rate, t.pool, 1, max 2 t.block⟩ ⟨t.rate, t.pool, 0, max 2 t.block⟩ :=
      ⟨rfl, le_rfl, hzero.dated, h.fits⟩
    have hblock : 2 ≤ max 2 t.block := le_max_left _ _
    have hshown : 1 ≤ max 2 t.block := by omega
    exact .of_extract (step_rewind hzero (Nat.zero_le _) (Nat.zero_le _) hpos rfl)
      (.of_extract (step_rewind hone hshown hshown hpos rfl)
        (closes_of_rewound hrate hfits hblock hzero.dated t.pool h.fits))

end Lease

/-! ## The contract -/

section Closing

variable [ScriptHash] {codeHash : Byte32} {a : MatchArgs} {c : LiveCell} {t : Lease}

omit [ScriptHash] in
theorem IsLease.rate_lt (h : IsLease codeHash a c t) : t.rate < 2 ^ 64 := by
  obtain ⟨d, -, rfl⟩ := h.decodes
  exact d.shannonsPerBlock.isLt

/-- What is read as an update is signed by the buyer. -/
theorem Leased.signed_of_update {tx : Transaction} {s s' : Option LiveCell} {l : Option Lease}
    (h : Leased codeHash a s l) (step : Step codeHash s tx s')
    (hupdate : eventOf ⟨s, tx, s'⟩ = .update) : Signed tx a.orderArgs.buyerLockHash := by
  cases s with
  | none => exact absurd step not_step_none
  | some c =>
      cases l with
      | none => exact h.elim
      | some t =>
          obtain ⟨d, hc, -⟩ := h.decodes
          cases s' with
          | none => cases hupdate
          | some c' =>
              cases step.transition with
              | orderMatch old => exact absurd old hc.not_isOrder
              | sellerExtract old new xudt rate signed unsigned listed due =>
                  have hseller := (bySeller_iff old).mpr ⟨signed, unsigned⟩
                  rw [eventOf_extract hseller due.isTip] at hupdate
                  cases hupdate
              | buyerUpdate old new xudt rate unsigned signed =>
                  obtain ⟨rfl, -⟩ := hc.unique old
                  exact signed

/-- **The seller alone.** He closes a match for capacity, in accepted transactions that the
buyer does not sign, exactly where it has a rate or no pool.

With a rate he can take the pool down by showing blocks 1 and 2 in turn, if he does not want to
wait.  Without one no rent ever runs up: he may extract nothing as often as he likes, and the
pool stays where it is. -/
theorem seller_closes_iff {seller : Address} (hapart : PartiesApart codeHash a)
    (hseller : ActsFor codeHash seller a.sellerLockHash) (h : IsLease codeHash a c t) :
    (∃ moves, Run (Step codeHash) (some c) moves none ∧
        ∀ m ∈ moves, ¬ Signed m.label a.orderArgs.buyerLockHash) ↔
      0 < t.rate ∨ t.pool = 0 := by
  -- by the machine; moves without the buyer's signature are events other than updates
  rw [← Lease.sellerCloses_iff h.follows h.rate_lt]
  have hstart : Leased codeHash a (some c) (some t) := h
  constructor
  · rintro ⟨moves, run, hmoves⟩
    obtain ⟨amoves, l, arun, hl, hlabels⟩ : ∃ amoves l, Run Lease.Step (some t) amoves l ∧
        Leased codeHash a none l ∧
          List.Forall₂ (fun _ am => am.label ≠ Lease.Event.update) moves amoves := by
      refine (run.restrict hmoves).simulate ?_ hstart
      rintro s tx s' l ⟨step, hunsigned⟩ hs
      obtain ⟨l', hstep, hs'⟩ := hs.forth step
      exact ⟨_, l', hstep, hs', fun hupdate => hunsigned (hs.signed_of_update step hupdate)⟩
    cases l with
    | none =>
        exact ⟨amoves, arun, forall_left_of_forall₂ hlabels.flip id⟩
    | some => exact hl.elim
  · rintro ⟨amoves, arun, hamoves⟩
    obtain ⟨moves, s, run, hs, hlabels⟩ : ∃ moves s, Run (Step codeHash) (some c) moves s ∧
        Leased codeHash a s none ∧ List.Forall₂
          (fun _ m => ¬ Signed m.label a.orderArgs.buyerLockHash) amoves moves := by
      refine (arun.restrict hamoves).simulate (R := fun l s => Leased codeHash a s l) ?_ hstart
      rintro l event l' s ⟨step, hne⟩ hs
      obtain ⟨tx, s', hstep, hs', -, hunsigned⟩ := hs.back_of_seller hapart hseller step hne
      exact ⟨tx, s', hstep, hs', hunsigned⟩
    cases s with
    | none =>
        exact ⟨moves, run, forall_left_of_forall₂ hlabels.flip id⟩
    | some => exact hs.elim

end Closing

/-! ## In the market -/

namespace Market

/-- The match that runs since block 1000 has a rate: the seller closes it. -/
theorem running_closed_by_seller :
    ∃ moves, Run (Step codeHash) (some running.toLiveCell) moves none ∧
      ∀ m ∈ moves, ¬ Signed m.label matchArgs.orderArgs.buyerLockHash :=
  (seller_closes_iff partiesApart_matchArgs actsFor_seller isLease_running).mpr (.inl (by decide))

end Market

end Opticrum
