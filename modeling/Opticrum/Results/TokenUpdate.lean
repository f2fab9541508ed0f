import Opticrum.Contract.Construct

/-!
# Updating a Match cell that holds tokens

A Match cell with a type script pays its rent in tokens, so both update paths of
`match_update` expect the token amount to change: it drops by the rent in an
extraction, and the buyer may set it as he likes.

The root verifier routes an update only when the *whole* xUDT state is unchanged,
amount included.  `tokenUpdate_accepted_iff` says what is left: extractions of no
rent, and buyer updates that keep the amount.

## The setting

`TokenUpdate` fixes what every such update has in common: one match is replaced by one match
with the same args, rate and type script, at a tip that is not before the base.
`SellerExtraction` and `BuyerUpdate` are the two requests, each with everything its own path of
the verifier would ask.  So whatever is rejected is rejected by the routing, and the condition
in the theorem is the equality of the two amounts, in either case.
-/

namespace Opticrum

open Rust Ckb

section Update

variable [ScriptHash]

/-- `tx` replaces the Match cell `c` of type script `s` by the one Match output
`o`, with the args, the rate and the type script of `c`, at a tip not before its
rent base.  Both cells hold the capacity they occupy. -/
structure TokenUpdate (codeHash : Byte32) (tx : Transaction) (c : MatchCell) (o : Cell)
    (d' : MatchData) (s : Script) (tip : ℕ) : Prop where
  sole : opticrumInputs codeHash tx = [c.toLiveCell]
  type_ : c.type_ = some s
  output : opticrumOutputs codeHash tx = [o]
  decodes : IsMatch o c.args d'
  outputType : o.type_ = some s
  rate : d'.shannonsPerBlock = c.matchData.shannonsPerBlock
  isTip : tip? tx = some tip
  late : rentBase c.toLiveCell c.matchData ≤ tip
  funded : c.occupied ≤ c.capacity.toNat ∧ o.occupied ≤ o.capacity.toNat

/-- The seller alone signs and takes exactly the rent, in tokens, of a match that
is not exhausted. -/
structure SellerExtraction (tx : Transaction) (c : MatchCell) (o : Cell) (d' : MatchData)
    (tip : ℕ) : Prop where
  signed : Signed tx c.args.sellerLockHash
  unsigned : ¬ Signed tx c.args.orderArgs.buyerLockHash
  listed : ChannelListed tx c.args.channelOutpoint
  fits : rentAt c.toLiveCell c.matchData tip < 2 ^ 64
  alive : rentAt c.toLiveCell c.matchData tip < c.matchData.xudtAmount.toNat
  pool : o.unoccupied = c.unoccupied
  amount : d'.xudtAmount.toNat =
    c.matchData.xudtAmount.toNat - rentAt c.toLiveCell c.matchData tip
  clock : d'.lastExtractionBlock.toNat = tip

/-- The buyer alone signs and keeps the clock. -/
structure BuyerUpdate (tx : Transaction) (c : MatchCell) (d' : MatchData) : Prop where
  unsigned : ¬ Signed tx c.args.sellerLockHash
  signed : Signed tx c.args.orderArgs.buyerLockHash
  clock : d'.lastExtractionBlock = c.matchData.lastExtractionBlock

variable {codeHash : Byte32} {tx : Transaction} {c : MatchCell} {o : Cell} {d' : MatchData}
  {s : Script} {tip : ℕ}

/-- Acceptance of a token update is the transition to its one output. -/
theorem TokenUpdate.accepted_iff (h : TokenUpdate codeHash tx c o d' s tip) :
    AcceptedBy codeHash tx ↔ Transition tx c.toLiveCell (some o) := by
  have hout : opticrumOutput? codeHash tx = some o := by
    rw [opticrumOutput?_eq_head?, h.output]
    rfl
  constructor
  · intro haccepted
    have htransition :=
      haccepted.transition (isOpticrumLock_of_sole h.sole) (groupInputs_of_sole h.sole)
    rwa [hout] at htransition
  · intro htransition
    refine acceptedBy_of_transition h.sole (List.forall_mem_nil _)
      (h.funded.1.trans_lt c.capacity.isLt) (fun o' ho' => ?_) (by rwa [hout])
    obtain rfl := Option.some.inj (hout.symm.trans ho')
    exact h.funded.2.trans_lt o.capacity.isLt

omit [ScriptHash] in
/-- The root's comparison of the tokens compares the amounts. -/
theorem TokenUpdate.xudt_eq_iff (h : TokenUpdate codeHash tx c o d' s tip) :
    xudtOf c.toCell = xudtOf o ↔ d'.xudtAmount = c.matchData.xudtAmount := by
  rw [c.decodes.xudtOf_eq, h.decodes.xudtOf_eq, h.type_, h.outputType]
  simp [eq_comm]

theorem TokenUpdate.seller_accepted_iff (h : TokenUpdate codeHash tx c o d' s tip)
    (hseller : SellerExtraction tx c o d' tip) :
    AcceptedBy codeHash tx ↔
      rentAt c.toLiveCell c.matchData tip = 0 ∧
        (c.matchData.lastExtractionBlock = 0 → tx.hasHeader c.header) := by
  rw [h.accepted_iff]
  have hrent := hseller.alive
  have hamount := hseller.amount
  constructor
  · intro htransition
    cases htransition with
    | orderMatch old => exact absurd old c.decodes.not_isOrder
    | sellerExtract old new xudt rate signed unsigned listed due alive exact clock =>
        obtain ⟨rfl, rfl⟩ := old.unique c.decodes
        have hkept := h.xudt_eq_iff.mp xudt
        rw [hkept] at hamount
        exact ⟨by omega, due.creation⟩
    | buyerUpdate old new xudt rate unsigned signed clock =>
        obtain ⟨rfl, rfl⟩ := old.unique c.decodes
        exact absurd hseller.signed unsigned
  · rintro ⟨hzero, hcreation⟩
    have hkept : d'.xudtAmount = c.matchData.xudtAmount :=
      BitVec.eq_of_toNat_eq (by omega)
    refine .sellerExtract c.decodes h.decodes (h.xudt_eq_iff.mpr hkept) h.rate.symm
      hseller.signed hseller.unsigned hseller.listed ⟨h.isTip, hcreation, hseller.fits⟩ ?_ ?_
      hseller.clock
    · rwa [valueOf_of_type_some c.decodes h.type_]
    · rw [extracted_of_type_some c.decodes h.type_, hkept, hzero, Nat.sub_self]

theorem TokenUpdate.buyer_accepted_iff (h : TokenUpdate codeHash tx c o d' s tip)
    (hbuyer : BuyerUpdate tx c d') :
    AcceptedBy codeHash tx ↔ d'.xudtAmount = c.matchData.xudtAmount := by
  rw [h.accepted_iff]
  constructor
  · intro htransition
    cases htransition with
    | orderMatch old => exact absurd old c.decodes.not_isOrder
    | sellerExtract old new xudt rate signed =>
        obtain ⟨rfl, rfl⟩ := old.unique c.decodes
        exact absurd signed hbuyer.unsigned
    | buyerUpdate old new xudt => exact h.xudt_eq_iff.mp xudt
  · intro hkept
    exact .buyerUpdate c.decodes h.decodes (h.xudt_eq_iff.mpr hkept) h.rate.symm hbuyer.unsigned
      hbuyer.signed hbuyer.clock

/-- **Token updates.** The seller can extract only when no rent has accrued, the buyer can
update only when the amount stays.

Both have the same cause.  The comparison of the two states asks for equal tokens, the amount
included, before an update is routed to the verifier that would look at how the amount has
changed.  So the seller may show only tips at which nothing is due; the header of the match's
own block is then asked for as long as nothing has been extracted. -/
theorem tokenUpdate_accepted_iff (h : TokenUpdate codeHash tx c o d' s tip) :
    (SellerExtraction tx c o d' tip →
      (AcceptedBy codeHash tx ↔ rentAt c.toLiveCell c.matchData tip = 0 ∧
        (c.matchData.lastExtractionBlock = 0 → tx.hasHeader c.header))) ∧
    (BuyerUpdate tx c d' →
      (AcceptedBy codeHash tx ↔ d'.xudtAmount = c.matchData.xudtAmount)) :=
  ⟨h.seller_accepted_iff, h.buyer_accepted_iff⟩

end Update

/-! ## In the market -/

namespace Market

/-- A Match cell with 100 tokens. -/
def tokenMatch : MatchCell := matchCell ⟨100, 3, 0⟩ (some token) 0 0 1000

/-- The same cell with another amount. -/
def restocked (amount : U128) : Cell :=
  matchOutput codeHash matchArgs ⟨amount, 3, 0⟩ (some token) 0

/-- The buyer changes the amount of tokens, in block 1010 or later. -/
def restock (amount : U128) : Transaction :=
  spend tokenMatch.toLiveCell buyerCell [restocked amount, buyerCell.toCell] []
    [headerAt 1010, headerAt 1000]

theorem tokenUpdate_restock (amount : U128) :
    TokenUpdate codeHash (restock amount) tokenMatch (restocked amount) ⟨amount, 3, 0⟩ token 1010
      where
  sole := opticrumInputs_spend isOpticrumLock_matchCell (by decide)
  type_ := rfl
  output := by
    have hbuyer : isOpticrumLock codeHash buyerCell.lock = false := by decide
    have hout : isOpticrumLock codeHash (restocked amount).lock = true :=
      isOpticrumLock_opticrumLock _ _
    simp [opticrumOutputs, restock, spend, hbuyer, hout]
  decodes := isMatch_matchOutput
  outputType := rfl
  rate := rfl
  isTip := by
    rw [restock, tip?_spend, headerAt_number (by decide)]
  late := by
    have hblock : tokenMatch.block = 1000 := matchCell_block (by decide)
    have hbase : rentBase tokenMatch.toLiveCell tokenMatch.matchData = tokenMatch.block :=
      rentBase_of_eq_zero rfl
    rw [hbase, hblock]
    decide
  funded := ⟨matchOutput_funded (by decide), matchOutput_funded (by decide)⟩

theorem buyerUpdate_restock (amount : U128) :
    BuyerUpdate (restock amount) tokenMatch ⟨amount, 3, 0⟩ where
  unsigned := (signed_spend_buyerCell rfl).1
  signed := (signed_spend_buyerCell rfl).2
  clock := rfl

/-- Adding 50 tokens to the 100 is rejected. -/
theorem restock_150_rejected :
    TokenUpdate codeHash (restock 150) tokenMatch (restocked 150) ⟨150, 3, 0⟩ token 1010 ∧
      BuyerUpdate (restock 150) tokenMatch ⟨150, 3, 0⟩ ∧ ¬ AcceptedBy codeHash (restock 150) := by
  refine ⟨tokenUpdate_restock _, buyerUpdate_restock _, ?_⟩
  rw [(tokenUpdate_restock 150).buyer_accepted_iff (buyerUpdate_restock 150)]
  decide

/-- The cell after an extraction at the tip. -/
def withdrawn (amount : U128) (tip : ℕ) : Cell :=
  matchOutput codeHash matchArgs ⟨amount, 3, BitVec.ofNat 64 tip⟩ (some token) 0

/-- The seller leaves `amount` tokens at the tip. -/
def withdraw (amount : U128) (tip : ℕ) : Transaction :=
  spend tokenMatch.toLiveCell sellerCell [withdrawn amount tip, sellerCell.toCell]
    [.code channelCell] [headerAt tip, headerAt 1000]

theorem tokenUpdate_withdraw (amount : U128) {tip : ℕ} (hlate : 1000 ≤ tip)
    (hfits : tip < 2 ^ 64) :
    TokenUpdate codeHash (withdraw amount tip) tokenMatch (withdrawn amount tip)
      ⟨amount, 3, BitVec.ofNat 64 tip⟩ token tip where
  sole := opticrumInputs_spend isOpticrumLock_matchCell (by decide)
  type_ := rfl
  output := by
    have hseller : isOpticrumLock codeHash sellerCell.lock = false := by decide
    have hout : isOpticrumLock codeHash (withdrawn amount tip).lock = true :=
      isOpticrumLock_opticrumLock _ _
    simp [opticrumOutputs, withdraw, spend, hseller, hout]
  decodes := isMatch_matchOutput
  outputType := rfl
  rate := rfl
  isTip := by
    rw [withdraw, tip?_spend, headerAt_number hfits]
  late := by
    have hblock : tokenMatch.block = 1000 := matchCell_block (by decide)
    have hbase : rentBase tokenMatch.toLiveCell tokenMatch.matchData = tokenMatch.block :=
      rentBase_of_eq_zero rfl
    rwa [hbase, hblock]
  funded := ⟨matchOutput_funded (by decide), matchOutput_funded (by decide)⟩

theorem tokenMatch_rentAt (tip : ℕ) :
    rentAt tokenMatch.toLiveCell tokenMatch.matchData tip = 3 * (tip - 1000) :=
  matchCell_rentAt (by decide) tip

/-- Leaving all but the rent is what an extraction should do. -/
theorem sellerExtraction_withdraw {amount : U128} {tip : ℕ} (hfits : tip < 2 ^ 64)
    (halive : 3 * (tip - 1000) < 100) (hamount : amount.toNat = 100 - 3 * (tip - 1000)) :
    SellerExtraction (withdraw amount tip) tokenMatch (withdrawn amount tip)
      ⟨amount, 3, BitVec.ofNat 64 tip⟩ tip where
  signed := (signed_spend_sellerCell rfl).1
  unsigned := (signed_spend_sellerCell rfl).2
  listed := ⟨_, List.mem_cons_self, OutPoint.isAt_iff.mpr rfl⟩
  fits := by rw [tokenMatch_rentAt]; omega
  alive := by rw [tokenMatch_rentAt]; exact halive
  pool := by
    have hpool : tokenMatch.unoccupied = 0 := matchCell_unoccupied (by decide)
    have hpool' : (withdrawn amount tip).unoccupied = 0 := matchOutput_unoccupied (by decide)
    rw [hpool, hpool']
  amount := by rw [tokenMatch_rentAt]; exact hamount
  clock := toNat_ofNat_of_lt hfits

/-- The buyer may keep the 100 tokens.  The seller may extract in the block of the match, and
no more once 30 tokens are due. -/
theorem tokenMatch_updates :
    AcceptedBy codeHash (restock 100) ∧ AcceptedBy codeHash (withdraw 100 1000) ∧
      ¬ AcceptedBy codeHash (withdraw 70 1010) := by
  have hcreated : rentAt tokenMatch.toLiveCell tokenMatch.matchData 1000 = 0 :=
    tokenMatch_rentAt 1000
  have hlater : rentAt tokenMatch.toLiveCell tokenMatch.matchData 1010 = 30 :=
    tokenMatch_rentAt 1010
  have hheader : (withdraw 100 1000).hasHeader tokenMatch.header = true :=
    hasHeader_spend (by simp [tokenMatch, matchCell, MatchCell.of])
  refine ⟨?_, ?_, fun haccepted => ?_⟩
  · exact ((tokenUpdate_accepted_iff (tokenUpdate_restock 100)).2
      (buyerUpdate_restock 100)).mpr rfl
  · exact ((tokenUpdate_accepted_iff (tokenUpdate_withdraw 100 le_rfl (by decide))).1
      (sellerExtraction_withdraw (by decide) (by decide) (by decide))).mpr
        ⟨hcreated, fun _ => hheader⟩
  · have hupdate : TokenUpdate codeHash (withdraw 70 1010) tokenMatch (withdrawn 70 1010)
        ⟨70, 3, 1010⟩ token 1010 := tokenUpdate_withdraw 70 (by decide) (by decide)
    have hfree := ((tokenUpdate_accepted_iff hupdate).1
      (sellerExtraction_withdraw (by decide) (by decide) (by decide))).mp haccepted
    rw [hlater] at hfree
    exact absurd hfree.1 (by decide)

end Market

end Opticrum
