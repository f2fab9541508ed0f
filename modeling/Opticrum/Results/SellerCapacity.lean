import Opticrum.Contract.Construct

/-!
# The capacity of a match that holds tokens

The seller's side of `match_update` checks the asset the rent is paid in.  For a
match that holds tokens that is the amount; the capacity next to it is left to
whoever builds the transaction.

An extraction from such a match is accepted only when no rent has accrued, since
the routing does not let the amount change.  `takesNoCkb_iff` says that at such a
tip the seller may take every unoccupied shannon.

## Both directions

For the seller's side to be open, two things are asked: the match is not exhausted, and the
amount taken is the rent.  As the amount cannot change, the rent is zero, and as it is not
exhausted, there is an amount.  `rent_eq_zero_of_accepted` is that inversion.

Where both hold, `drain` is accepted: a successor with the same data but for the clock, and with
nothing but what it occupies.  Its data are the first 32 bytes, so it occupies no more than the
cell it replaces.
-/

namespace Opticrum

open Rust Ckb

section Capacity

/-- The Match cells a transaction consumes. -/
def matchInputs (codeHash : Byte32) (tx : Transaction) : List LiveCell :=
  (opticrumInputs codeHash tx).filter fun c => isMatchCell c.toCell

variable [ScriptHash]

/-- No seller extraction at the tip, from a transaction whose one Match input is `c`,
leaves the first Opticrum output less unoccupied capacity than `c` has. -/
def TakesNoCkb (codeHash : Byte32) (c : MatchCell) (tip : U64) : Prop :=
  ∀ tx o, matchInputs codeHash tx = [c.toLiveCell] → AcceptedBy codeHash tx →
    bySeller tx c.toCell = true → tip? tx = some tip.toNat →
      opticrumOutput? codeHash tx = some o → c.unoccupied ≤ o.unoccupied

variable {codeHash : Byte32} {c : MatchCell} {s : Script}

/-- In an accepted transaction the one Match input is the cell the script inspects. -/
theorem groupInputs_of_matchInputs {tx : Transaction}
    (hinputs : matchInputs codeHash tx = [c.toLiveCell]) (haccepted : AcceptedBy codeHash tx) :
    ∃ rest, tx.groupInputs c.lock = c.toLiveCell :: rest := by
  have hmem : c.toLiveCell ∈ matchInputs codeHash tx := hinputs ▸ List.mem_cons_self
  obtain ⟨head, rest, hgroup, hlock, hhead⟩ := groupInputs_of_mem (List.mem_filter.mp hmem).1
  have htransition := haccepted.transition (mem_opticrumInputs.mp hhead).2 hgroup
  -- the head shares the lock args of `c`, so it is a Match as well
  have hmatch : ∃ a d, IsMatch head.toCell a d := by
    have hnot : ∀ {a : OrderArgs} {d : OrderData}, ¬ IsOrder head.toCell a d := by
      intro a d h
      have hlength := congrArg List.length h.args_eq
      rw [hlock, c.decodes.args_eq, Vector.length_toList, Vector.length_toList] at hlength
      exact absurd hlength (by decide)
    generalize opticrumOutput? codeHash tx = out at htransition
    cases htransition with
    | orderCancel old => exact absurd old hnot
    | orderMatch old => exact absurd old hnot
    | sellerExtract old => exact ⟨_, _, old⟩
    | buyerUpdate old => exact ⟨_, _, old⟩
    | matchDestroy old => exact ⟨_, _, old⟩
  obtain ⟨a, d, hmatch⟩ := hmatch
  have hin : head ∈ matchInputs codeHash tx := List.mem_filter.mpr ⟨hhead, hmatch.isMatchCell⟩
  rw [hinputs, List.mem_singleton] at hin
  subst hin
  exact ⟨rest, hgroup⟩

/-! ## When the seller's side is closed -/

/-- An accepted extraction of a match that holds tokens takes no rent, and leaves some
tokens. -/
theorem rent_eq_zero_of_accepted {tx : Transaction} {tip : ℕ} {o : Cell}
    (hs : c.type_ = some s) (hinputs : matchInputs codeHash tx = [c.toLiveCell])
    (haccepted : AcceptedBy codeHash tx) (hseller : bySeller tx c.toCell = true)
    (htip : tip? tx = some tip) (hout : opticrumOutput? codeHash tx = some o) :
    rentAt c.toLiveCell c.matchData tip = 0 ∧ c.matchData.xudtAmount ≠ 0 := by
  obtain ⟨rest, hgroup⟩ := groupInputs_of_matchInputs hinputs haccepted
  have hmem : c.toLiveCell ∈ matchInputs codeHash tx := hinputs ▸ List.mem_cons_self
  have hlock := (mem_opticrumInputs.mp (List.mem_filter.mp hmem).1).2
  have htransition := haccepted.transition hlock hgroup
  rw [hout] at htransition
  cases htransition with
  | orderMatch old => exact absurd old c.decodes.not_isOrder
  | sellerExtract old new xudt rate signed unsigned listed due alive exact clock =>
      obtain ⟨rfl, rfl⟩ := old.unique c.decodes
      obtain rfl := Option.some.inj (htip.symm.trans due.isTip)
      have htype := type_eq_of_xudtOf_eq old new xudt
      rw [old.xudtOf_eq, new.xudtOf_eq, ← htype, hs] at xudt
      simp only [Option.map_some, Option.some.injEq, Prod.mk.injEq, and_true] at xudt
      rw [extracted_of_type_some old hs, xudt, Nat.sub_self] at exact
      rw [valueOf_of_type_some old hs] at alive
      refine ⟨exact.symm, fun hzero => ?_⟩
      rw [hzero] at alive
      exact absurd alive (Nat.not_lt_zero _)
  | buyerUpdate old new xudt rate unsigned signed clock =>
      obtain ⟨rfl, rfl⟩ := old.unique c.decodes
      exact absurd ((bySeller_iff old).mp hseller).1 unsigned

/-! ## When it is open -/

/-- A live match between two parties, of whom the seller has a lock to sign with. -/
structure SellerMatch (codeHash : Byte32) (c : MatchCell) : Prop where
  lock : isOpticrumLock codeHash c.lock = true
  funded : c.occupied ≤ c.capacity.toNat
  parties : c.args.sellerLockHash ≠ c.args.orderArgs.buyerLockHash
  notBuyer : calcScriptHash c.lock ≠ c.args.orderArgs.buyerLockHash
  seller : ∃ lock, isOpticrumLock codeHash lock = false ∧
    calcScriptHash lock = c.args.sellerLockHash

/-- The match without its unoccupied capacity, its clock set to the tip. -/
def drained (c : MatchCell) (tip : U64) : Cell :=
  fund ⟨0, c.lock, c.type_,
    (MatchData.mk c.matchData.xudtAmount c.matchData.shannonsPerBlock tip).toBytes.toList⟩ 0

omit [ScriptHash] in
@[simp] theorem drained_lock (tip : U64) : (drained c tip).lock = c.lock := fund_lock _ _

omit [ScriptHash] in
@[simp] theorem drained_type (tip : U64) : (drained c tip).type_ = c.type_ := fund_type _ _

omit [ScriptHash] in
/-- Its data is that of the match, but for the block. -/
theorem drained_data (tip : U64) : (drained c tip).data =
    (MatchData.mk c.matchData.xudtAmount c.matchData.shannonsPerBlock tip).toBytes.toList := by
  rw [drained, fund_data]

omit [ScriptHash] in
/-- It is a match with the same args. -/
theorem isMatch_drained (tip : U64) : IsMatch (drained c tip) c.args
    ⟨c.matchData.xudtAmount, c.matchData.shannonsPerBlock, tip⟩ := by
  refine isMatch_of_toBytes ?_ (drained_data tip)
  rw [drained_lock, c.decodes.args_eq]

omit [ScriptHash] in
/-- It occupies no more than the match, whose data may have been longer than 32 bytes. -/
theorem drained_occupied_le (tip : U64) : (drained c tip).occupied ≤ c.occupied := by
  have hlen := (parse_eq_matchCell_iff.mp c.decodes).2.1
  have hbytes : (drained c tip).occupiedBytes ≤ c.occupiedBytes := by
    rw [Cell.occupiedBytes, Cell.occupiedBytes, drained_lock, drained_type, drained_data,
      Vector.length_toList]
    exact Nat.add_le_add_left hlen _
  exact Nat.mul_le_mul_left _ hbytes

omit [ScriptHash] in
/-- And it holds nothing more than what it occupies. -/
theorem drained_unoccupied {tip : U64} (h : (drained c tip).occupied < 2 ^ 64) :
    (drained c tip).unoccupied = 0 := by
  rw [drained, fund_occupied] at h
  rw [drained, fund_unoccupied (by rwa [Nat.add_zero])]

/-- The seller takes the unoccupied capacity at the tip. -/
def drain (c : MatchCell) (lock : Script) (tip : Header) : Transaction :=
  spend c.toLiveCell (partyCell lock 0 ⟨Vector.replicate 32 0, 0⟩ c.header)
    [drained c tip.number]
    [.code (partyCell lock 0 c.args.channelOutpoint.packed c.header)] [tip, c.header]

section Drain

variable {lock : Script} {tip : Header}

/-- The seller signs for it, and the buyer does not. -/
theorem signed_drain (h : SellerMatch codeHash c)
    (hhash : calcScriptHash lock = c.args.sellerLockHash) (tip : Header) :
    Signed (drain c lock tip) c.args.sellerLockHash ∧
      ¬ Signed (drain c lock tip) c.args.orderArgs.buyerLockHash := by
  refine ⟨signed_spend.mpr (.inr hhash), ?_⟩
  rw [drain, signed_spend]
  rintro (hbuyer | hbuyer)
  · exact h.notBuyer hbuyer
  · exact h.parties (hhash.symm.trans hbuyer)

/-- While no rent has accrued, the script finds nothing wrong with it. -/
theorem transition_drain (h : SellerMatch codeHash c) (hs : c.type_ = some s)
    (hhash : calcScriptHash lock = c.args.sellerLockHash)
    (hrent : rentAt c.toLiveCell c.matchData tip.number.toNat = 0)
    (hamount : c.matchData.xudtAmount ≠ 0) :
    Transition (drain c lock tip) c.toLiveCell (some (drained c tip.number)) := by
  have hnew := isMatch_drained (c := c) tip.number
  have hxudt : xudtOf c.toCell = xudtOf (drained c tip.number) := by
    rw [c.decodes.xudtOf_eq, hnew.xudtOf_eq, drained_type]
  obtain ⟨hsigned, hunsigned⟩ := signed_drain h hhash tip
  have hlisted : ChannelListed (drain c lock tip) c.args.channelOutpoint :=
    ⟨_, List.mem_cons_self, OutPoint.isAt_iff.mpr rfl⟩
  have hdue : RentDue (drain c lock tip) c.toLiveCell c.matchData tip.number.toNat :=
    ⟨tip?_spend, fun _ => hasHeader_spend (by simp), by omega⟩
  refine .sellerExtract c.decodes hnew hxudt rfl hsigned hunsigned hlisted hdue ?_ ?_ rfl
  · rw [valueOf_of_type_some c.decodes hs, hrent]
    exact Nat.pos_of_ne_zero fun hzero => hamount (BitVec.eq_of_toNat_eq hzero)
  · rw [extracted_of_type_some c.decodes hs, hrent, Nat.sub_self]

/-- The transaction consumes the match, and no other cell of the contract. -/
theorem matchInputs_drain (h : SellerMatch codeHash c)
    (hlock : isOpticrumLock codeHash lock = false) (tip : Header) :
    opticrumInputs codeHash (drain c lock tip) = [c.toLiveCell] ∧
      matchInputs codeHash (drain c lock tip) = [c.toLiveCell] := by
  have hsole : opticrumInputs codeHash (drain c lock tip) = [c.toLiveCell] :=
    opticrumInputs_spend h.lock hlock
  refine ⟨hsole, ?_⟩
  rw [matchInputs, hsole]
  simp [c.decodes.isMatchCell]

/-- The drained cell is the output the script looks at. -/
theorem opticrumOutput?_drain (h : SellerMatch codeHash c) (lock : Script) (tip : Header) :
    opticrumOutput? codeHash (drain c lock tip) = some (drained c tip.number) := by
  simp [opticrumOutput?, drain, spend, h.lock]

/-- At a tip at which no rent has accrued, the seller may take all there is. -/
theorem not_takesNoCkb (h : SellerMatch codeHash c) (hs : c.type_ = some s) {tip : U64}
    (hpool : c.unoccupied ≠ 0) (hamount : c.matchData.xudtAmount ≠ 0)
    (hrent : rentAt c.toLiveCell c.matchData tip.toNat = 0) : ¬ TakesNoCkb codeHash c tip := by
  obtain ⟨lock, hlock, hhash⟩ := h.seller
  have hfits : c.occupied < 2 ^ 64 := h.funded.trans_lt c.capacity.isLt
  have hfits' : (drained c tip).occupied < 2 ^ 64 := (drained_occupied_le tip).trans_lt hfits
  have hempty : (drained c tip).unoccupied = 0 := drained_unoccupied hfits'
  obtain ⟨header, rfl⟩ : ∃ header : Header, header.number = tip :=
    ⟨⟨Vector.replicate 32 0, tip⟩, rfl⟩
  have htransition := transition_drain h hs hhash hrent hamount
  have hout := opticrumOutput?_drain h lock header
  obtain ⟨hsole, hmatches⟩ := matchInputs_drain h hlock header
  have haccepted : AcceptedBy codeHash (drain c lock header) := by
    refine acceptedBy_of_transition hsole (List.forall_mem_nil _) hfits (fun o ho => ?_) ?_
    · obtain rfl := Option.some.inj (hout.symm.trans ho)
      exact hfits'
    · rw [hout]
      exact htransition
  have hseller : bySeller (drain c lock header) c.toCell = true :=
    (bySeller_iff c.decodes).mpr (signed_drain h hhash header)
  intro hkept
  have hle := hkept _ _ hmatches haccepted hseller tip?_spend hout
  rw [hempty] at hle
  exact hpool (Nat.le_zero.mp hle)

end Drain

/-- **Capacity.** The seller can take no CKB out of a match that holds tokens exactly when there
is none to take, or his side is closed at that tip: because there are no tokens to take rent
from, or because rent has accrued.

Where it is open he gets all of it.  The verifier compares amounts of tokens for such a match
and does not look at the capacity of its replacement. -/
theorem takesNoCkb_iff (h : SellerMatch codeHash c) (hs : c.type_ = some s) (tip : U64) :
    TakesNoCkb codeHash c tip ↔
      c.unoccupied = 0 ∨ c.matchData.xudtAmount = 0 ∨
        rentAt c.toLiveCell c.matchData tip.toNat ≠ 0 := by
  constructor
  · intro hkept
    by_contra hnot
    push Not at hnot
    obtain ⟨hpool, hamount, hrent⟩ := hnot
    exact not_takesNoCkb h hs hpool hamount hrent hkept
  · intro hcond tx o hinputs haccepted hseller htip hout
    obtain ⟨hrent, hamount⟩ := rent_eq_zero_of_accepted hs hinputs haccepted hseller htip hout
    rcases hcond with hpool | hzero | hpos
    · rw [hpool]
      exact Nat.zero_le _
    · exact absurd hzero hamount
    · exact absurd hrent hpos

end Capacity

/-! ## In the market -/

namespace Market

/-- A match with 100 tokens and a pool of 100000 shannons, from block 1000. -/
def pooledTokens (pool : ℕ) : MatchCell := matchCell ⟨100, 3, 0⟩ (some token) pool 0 1000

/-- The match of 100 tokens with a pool beside them has a seller who can sign, and is funded. -/
theorem sellerMatch_pooledTokens {pool : ℕ} (h : pool < 2 ^ 62) :
    SellerMatch codeHash (pooledTokens pool) where
  lock := isOpticrumLock_matchCell
  funded := by
    refine matchOutput_funded ?_
    have hocc : oneCkb * (206 + (some token).elim 0 Script.occupiedBytes) < 2 ^ 62 := by decide
    omega
  parties := sellerLockHash_ne_buyerLockHash
  notBuyer := calcScriptHash_matchLock_ne.2
  seller := ⟨sellerLock, by decide, calcScriptHash_sellerLock⟩

/-- It owes 3 tokens a block from block 1000 on. -/
theorem pooledTokens_rentAt (pool tip : ℕ) :
    rentAt (pooledTokens pool).toLiveCell (pooledTokens pool).matchData tip = 3 * (tip - 1000) :=
  matchCell_rentAt (by decide) tip

/-- In the block that created it, the seller may take the whole pool. -/
theorem pooledTokens_drained :
    SellerMatch codeHash (pooledTokens 100000) ∧ (pooledTokens 100000).type_ = some token ∧
      ¬ TakesNoCkb codeHash (pooledTokens 100000) 1000 := by
  have hmatch : SellerMatch codeHash (pooledTokens 100000) := sellerMatch_pooledTokens (by decide)
  have hpool : (pooledTokens 100000).unoccupied = 100000 := matchCell_unoccupied (by decide)
  refine ⟨hmatch, rfl, not_takesNoCkb hmatch rfl ?_ (by decide) ?_⟩
  · rw [hpool]
    decide
  · rw [pooledTokens_rentAt]
    decide

/-- In block 1010 a rent of 30 tokens is due, and the seller may not take any of it: not of
the tokens, and so not of the pool. -/
theorem pooledTokens_due_takesNoCkb : TakesNoCkb codeHash (pooledTokens 100000) 1010 := by
  refine (takesNoCkb_iff (sellerMatch_pooledTokens (by decide)) rfl 1010).mpr (.inr (.inr ?_))
  rw [pooledTokens_rentAt]
  decide

end Market

end Opticrum
