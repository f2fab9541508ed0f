import Opticrum.Results.Life

/-!
# What an escrow is

An escrow for capacity comes to four numbers: its rate, its pool, the block of the last
extraction and the block of its cell.  `Lease.Step` is the machine over these, without
cells, headers, signatures or encodings: the seller extracts the rent, the buyer sets the
pool, the seller sweeps a pool that the rent covers.

* `lease_traces` — this machine is the contract, no less and no more: every step the
  contract accepts is one of the machine, and every step of the machine is by some
  transaction the contract accepts, so that from a match the same sequences of events lead
  to the same numbers.
* `lease_reaches` — hence all that a match may become: the rate stays and the blocks go on,
  and nothing else is kept.  The parties get it to any pool and to any last extraction
  that is no later than its cell.

What a node asks besides is not the contract's and not the machine's, above all that the
cells a transaction names are live: a closed channel ends the extractions.

Two freedoms of the machine are not in the terms: the tip of an extraction may be before
the base, and an update may set any pool.  Where there is no rent, an extraction may even
add to the pool, since what it takes is a saturating difference.

## The relation

`leaseOf` reads the four numbers off a match, and `Leased` relates what is left of an escrow to
what is left of the machine: a match to its numbers, and a closed escrow to none.  The relation
determines the numbers, which is what makes the two sets of traces equal and not only the one
included in the other.

*Forth* is an inversion: each of the transitions a match can make is read as the event it
comes to.  *Back* is a construction: for each event there is a transaction, with a cell of the
party that acts in front of it and the successor as its output.  That is why it needs parties
that differ and can sign, and forth does not.
-/

namespace Opticrum

open Rust Ckb TransitionSystem

/-! ## The machine -/

/-- An escrow for capacity; no extraction yet is `last = 0`.  Four numbers are left of cells,
headers and signatures: the rate, the pool, the block of the last extraction and the block of
the cell. -/
structure Lease where
  rate : ℕ
  pool : ℕ
  last : ℕ
  block : ℕ
  deriving DecidableEq, Repr

namespace Lease

/-- What happens to a lease; the seller shows a tip.  An update has no amount, as it sets the
pool and does not change it by something. -/
inductive Event where
  | extract (tip : ℕ)
  | update
  | sweep (tip : ℕ)
  deriving DecidableEq, Repr

/-- The block the rent accrues from.  It is the stored one, or that of the cell when none is
stored. -/
def base (t : Lease) : ℕ := if t.last = 0 then t.block else t.last

/-- The rent at a tip. -/
def rent (t : Lease) (tip : ℕ) : ℕ := t.rate * (tip - t.base)

/-- `t'` may come after `t`: it has the rate of `t`, is committed no earlier, and fits. -/
structure Follows (t' t : Lease) : Prop where
  rate : t'.rate = t.rate
  later : t.block ≤ t'.block
  dated : t'.block < 2 ^ 64
  fits : tenancyOccupied + t'.pool < 2 ^ 64

/-- The machine; `none` is a closed escrow.  The seller shows any tip up to the block of the
next cell and takes the rent up to there; the buyer sets the pool to anything that fits; and the
seller closes at any tip at which the rent covers the pool. -/
inductive Step : Option Lease → Event → Option Lease → Prop
  | extract {t t' : Lease} (follows : t'.Follows t) (shown : t'.last ≤ t'.block)
      (alive : t.rent t'.last < t.pool) (exact : t.pool - t'.pool = t.rent t'.last) :
      Step (some t) (.extract t'.last) (some t')
  | update {t t' : Lease} (follows : t'.Follows t) (last : t'.last = t.last) :
      Step (some t) .update (some t')
  | sweep {t : Lease} {tip : ℕ} (dated : tip < 2 ^ 64) (exhausted : t.pool ≤ t.rent tip)
      (fits : t.rent tip < 2 ^ 64) : Step (some t) (.sweep tip) none

/-! ### What it reaches -/

/-- The states that `t` gets to: the end, and whatever follows with a last extraction that
is that of `t` or no later than the cell. -/
def Reaches (t : Lease) : Option Lease → Prop
  | none => True
  | some t' => t'.Follows t ∧ (t'.last = t.last ∨ t'.last ≤ t'.block)

variable {t t' t'' : Lease}

/-- Two steps lead where one could, as far as rate, block and pool go. -/
theorem Follows.trans (h' : t''.Follows t') (h : t'.Follows t) : t''.Follows t where
  rate := h'.rate.trans h.rate
  later := h.later.trans h'.later
  dated := h'.dated
  fits := h'.fits

/-- One step leads no further than that. -/
theorem Reaches.step {l l' : Option Lease} {event : Event} (step : Step l event l')
    (h : t.Reaches l) : t.Reaches l' := by
  cases step with
  | extract follows shown =>
      obtain ⟨hfollows, -⟩ := h
      exact ⟨follows.trans hfollows, .inr shown⟩
  | update follows last =>
      obtain ⟨hfollows, hlast⟩ := h
      refine ⟨follows.trans hfollows, ?_⟩
      rw [last]
      exact hlast.imp id fun hshown => hshown.trans follows.later
  | sweep => trivial

/-- Showing a tip that is not after the base costs nothing. -/
theorem rent_of_le {tip : ℕ} (h : tip ≤ t.base) : t.rent tip = 0 := by
  rw [rent, Nat.sub_eq_zero_of_le h, Nat.mul_zero]

/-- A pool of one shannon, in the cell of `t'`. -/
def penny (t' : Lease) (last : ℕ) : Lease := { t' with pool := 1, last := last }

/-- A pool of one shannon always fits. -/
theorem penny_follows {last : ℕ} (h : t'.Follows t) : (t'.penny last).Follows t where
  rate := h.rate
  later := h.later
  dated := h.dated
  fits := (by decide : tenancyOccupied + 1 < 2 ^ 64)

/-- From one cell to the next in the same block, as far as the clock is concerned. -/
theorem follows_penny {last : ℕ} (h : t'.Follows t) : t'.Follows (t'.penny last) where
  rate := rfl
  later := le_rfl
  dated := h.dated
  fits := h.fits

/-- The clock is turned to any block up to that of the cell, at no rent: back to zero,
which is the block of the cell, and back from there. -/
theorem run_of_shown (follows : t'.Follows t) (shown : t'.last ≤ t'.block) :
    ∃ moves, Run Step (some t) moves (some t') := by
  have hkept : Step (some t) .update (some (t'.penny t.last)) :=
    .update (penny_follows follows) rfl
  have hzero : Step (some (t'.penny t.last)) (.extract 0) (some (t'.penny 0)) := by
    have hfree : (t'.penny t.last).rent 0 = 0 := rent_of_le (Nat.zero_le _)
    refine .extract (penny_follows (follows_penny follows)) (Nat.zero_le _) ?_ ?_
    · exact hfree.trans_lt Nat.one_pos
    · exact hfree.symm
  have hback : Step (some (t'.penny 0)) (.extract t'.last) (some (t'.penny t'.last)) := by
    have hfree : (t'.penny 0).rent t'.last = 0 := rent_of_le shown
    refine .extract (penny_follows (follows_penny follows)) shown ?_ ?_
    · exact hfree.trans_lt Nat.one_pos
    · exact hfree.symm
  have hpool : Step (some (t'.penny t'.last)) .update (some t') :=
    .update (follows_penny follows) rfl
  exact ⟨_, .cons hkept (.cons hzero (.cons hback (.single hpool)))⟩

/-- Everything it may reach is reached. -/
theorem exists_run (h : t.Follows t) {l : Option Lease} (hreaches : t.Reaches l) :
    ∃ moves, Run Step (some t) moves l := by
  cases l with
  | none =>
      -- the buyer empties the pool
      have hempty : Step (some t) .update (some { t with pool := 0 }) :=
        .update ⟨rfl, h.later, h.dated, (by decide : tenancyOccupied + 0 < 2 ^ 64)⟩ rfl
      have hfree : ({ t with pool := 0 } : Lease).rent 0 = 0 := rent_of_le (Nat.zero_le _)
      have hclosed : Step (some { t with pool := 0 }) (.sweep 0) none :=
        .sweep (by decide) (Nat.zero_le _) (by rw [hfree]; decide)
      exact ⟨_, .cons hempty (.single hclosed)⟩
  | some t' =>
      obtain ⟨hfollows, hlast | hshown⟩ := hreaches
      · exact ⟨_, .single (.update hfollows hlast)⟩
      · exact run_of_shown hfollows hshown

end Lease

/-! ## The cells -/

/-- What a match comes to: rate, pool, last extraction, and the block of its cell. -/
def leaseOf (c : LiveCell) (d : MatchData) : Lease where
  rate := d.shannonsPerBlock.toNat
  pool := c.unoccupied
  last := d.lastExtractionBlock.toNat
  block := c.block

/-- A match for capacity with these args that comes to `t`.  What it occupies has to fit in 64
bits, or the script could not build a state for it. -/
structure IsLease (codeHash : Byte32) (a : MatchArgs) (c : LiveCell) (t : Lease) : Prop where
  lock : isOpticrumLock codeHash c.lock = true
  plain : c.type_ = none
  fits : c.occupied < 2 ^ 64
  decodes : ∃ d, IsMatch c.toCell a d ∧ leaseOf c d = t

/-- The escrow and the machine are in the same state. -/
def Leased (codeHash : Byte32) (a : MatchArgs) : Option LiveCell → Option Lease → Prop
  | none, none => True
  | some c, some t => IsLease codeHash a c t
  | _, _ => False

section Cells

variable {codeHash : Byte32} {a : MatchArgs} {c c' : LiveCell} {d d' : MatchData} {t t' : Lease}

/-- The base of the machine is the rent base of the cell. -/
theorem base_leaseOf : (leaseOf c d).base = rentBase c d := by
  have hzero : (leaseOf c d).last = 0 ↔ d.lastExtractionBlock = 0 := by
    rw [show (leaseOf c d).last = d.lastExtractionBlock.toNat from rfl]
    constructor
    · intro h
      exact BitVec.eq_of_toNat_eq h
    · intro h
      rw [h]
      rfl
  simp only [Lease.base, rentBase, hzero]
  rfl

/-- And its rent is the rent of the cell. -/
theorem rent_leaseOf {tip : ℕ} : (leaseOf c d).rent tip = rentAt c d tip := by
  rw [Lease.rent, base_leaseOf]
  rfl

/-- A match occupies at least what its args and its data need. -/
theorem IsMatch.le_occupied (h : IsMatch c.toCell a d) : tenancyOccupied ≤ c.occupied := by
  have hdata := (parse_eq_matchCell_iff.mp h).2.1
  have hbytes : 206 ≤ c.occupiedBytes := by
    rw [Cell.occupiedBytes, Script.occupiedBytes, h.args_eq, Vector.length_toList]
    simp only [matchArgsLen, matchDataLen, orderArgsLen, channelOutpointLen, fiberPubkeyLen,
      lockHashLen, xudtAmountLen, shannonsPerBlockLen, blocknumberLen] at hdata ⊢
    omega
  exact Nat.mul_le_mul_left _ hbytes

/-- So the pool leaves room for that in the capacity. -/
theorem IsMatch.pool_fits (h : IsMatch c.toCell a d) :
    tenancyOccupied + c.unoccupied < 2 ^ 64 := by
  have hoccupied := h.le_occupied
  have hcapacity := c.capacity.isLt
  have hroom : tenancyOccupied < 2 ^ 64 := by decide
  rw [Cell.unoccupied]
  omega

/-- A state of the escrow has one state of the machine: the numbers are read off the cell. -/
theorem leased_unique {s : Option LiveCell} {l l' : Option Lease} (h : Leased codeHash a s l)
    (h' : Leased codeHash a s l') : l = l' := by
  cases s with
  | none =>
      cases l with
      | none =>
          cases l' with
          | none => rfl
          | some _ => exact h'.elim
      | some _ => exact h.elim
  | some c =>
      cases l with
      | none => exact h.elim
      | some t =>
          cases l' with
          | none => exact h'.elim
          | some t' =>
              obtain ⟨d, hc, rfl⟩ := h.decodes
              obtain ⟨d', hc', rfl⟩ := h'.decodes
              obtain ⟨-, rfl⟩ := hc.unique hc'
              rfl

section Bisimulation

variable [ScriptHash] {tx : Transaction}

/-- What a move of an escrow is read as.  Who signs tells an extraction from an update, and the
tip of the transaction is that of the event. -/
def eventOf (m : Move (Option LiveCell) Transaction) : Lease.Event :=
  match m.source, m.target with
  | some c, some _ =>
      if bySeller m.label c.toCell then .extract ((tip? m.label).getD 0) else .update
  | _, _ => .sweep ((tip? m.label).getD 0)

/-! ### Forth -/

/-- The successor of a match under the contract's lock. -/
theorem Step.isLease (step : Step codeHash (some c) tx (some c')) (hplain : c'.type_ = none)
    (hc' : IsMatch c'.toCell a d') : IsLease codeHash a c' (leaseOf c' d') := by
  cases step with
  | replace sole accepted successor =>
      have hlock : isOpticrumLock codeHash c'.lock = true := by
        have hfound := List.find?_some successor
        exact hfound
      have hmem : c ∈ opticrumInputs codeHash tx := sole ▸ List.mem_cons_self
      have hcode := codeHash_of_isOpticrumLock (isOpticrumLock_of_sole sole)
      have hfits := (occupied_lt_of_accepts (groupInputs_of_sole sole) (accepted c hmem)).2
      rw [hcode] at hfits
      exact ⟨hlock, hplain, hfits _ successor, d', hc', rfl⟩

/-- The seller's update is an extraction at the tip it shows. -/
theorem eventOf_extract {tip : ℕ} (hseller : bySeller tx c.toCell = true)
    (htip : tip? tx = some tip) : eventOf ⟨some c, tx, some c'⟩ = .extract tip := by
  simp [eventOf, hseller, htip]

/-- Any other update is just that. -/
theorem eventOf_update (hseller : bySeller tx c.toCell = false) :
    eventOf ⟨some c, tx, some c'⟩ = .update := by
  simp [eventOf, hseller]

/-- A move after which there is no cell is a sweep. -/
theorem eventOf_sweep {tip : ℕ} (htip : tip? tx = some tip) :
    eventOf ⟨some c, tx, none⟩ = .sweep tip := by
  simp [eventOf, htip]

/-- A successor comes after. -/
theorem Step.follows (step : Step codeHash (some c) tx (some c')) (hc' : IsMatch c'.toCell a d')
    (hrate : d.shannonsPerBlock = d'.shannonsPerBlock) : (leaseOf c' d').Follows (leaseOf c d) where
  rate := congrArg BitVec.toNat hrate.symm
  later := step.later
  dated := c'.header.number.isLt
  fits := hc'.pool_fits

/-- What closes a match is a sweep. -/
theorem Step.sweeps (step : Step codeHash (some c) tx none) (hc : IsMatch c.toCell a d)
    (hplain : c.type_ = none) :
    Lease.Step (some (leaseOf c d)) (eventOf ⟨some c, tx, none⟩) none := by
  cases step.transition with
  | orderCancel old => exact absurd old hc.not_isOrder
  | matchDestroy old signed due exhausted =>
      obtain ⟨rfl, rfl⟩ := hc.unique old
      rw [valueOf_of_type_none hc hplain, ← rent_leaseOf] at exhausted
      obtain ⟨header, -, htip⟩ := Option.map_eq_some_iff.mp due.isTip
      rw [eventOf_sweep due.isTip]
      refine .sweep (htip ▸ header.number.isLt) exhausted ?_
      rw [rent_leaseOf]
      exact due.fits

/-- What replaces it is an extraction or an update. -/
theorem Step.turns (step : Step codeHash (some c) tx (some c')) (hc : IsMatch c.toCell a d)
    (hplain : c.type_ = none) :
    ∃ t', Lease.Step (some (leaseOf c d)) (eventOf ⟨some c, tx, some c'⟩) (some t') ∧
      IsLease codeHash a c' t' := by
  cases step.transition with
  | orderMatch old => exact absurd old hc.not_isOrder
  | @sellerExtract a d d' _ tip old new xudt rate signed unsigned listed due alive exact clock =>
      obtain ⟨rfl, rfl⟩ := hc.unique old
      rw [valueOf_of_type_none hc hplain, ← rent_leaseOf] at alive
      rw [extracted_of_type_none hc hplain, ← rent_leaseOf] at exact
      have hplain' := (type_eq_of_xudtOf_eq hc new xudt).symm.trans hplain
      have hseller := (bySeller_iff hc).mpr ⟨signed, unsigned⟩
      have hlast : (leaseOf c' d').last = tip := clock
      refine ⟨leaseOf c' d', ?_, step.isLease hplain' new⟩
      rw [eventOf_extract hseller due.isTip]
      rw [← hlast] at alive exact ⊢
      exact .extract (step.follows new rate) (hlast ▸ step.tip_le due.isTip) alive exact
  | @buyerUpdate a d d' _ old new xudt rate unsigned signed clock =>
      obtain ⟨rfl, rfl⟩ := hc.unique old
      have hplain' := (type_eq_of_xudtOf_eq hc new xudt).symm.trans hplain
      refine ⟨leaseOf c' d', ?_, step.isLease hplain' new⟩
      rw [eventOf_update (bySeller_of_unsigned hc unsigned)]
      exact .update (step.follows new rate) (congrArg BitVec.toNat clock)

/-- Every step of the contract is one of the machine. -/
theorem Leased.forth {s s' : Option LiveCell} {l : Option Lease} (step : Step codeHash s tx s')
    (h : Leased codeHash a s l) :
    ∃ l', Lease.Step l (eventOf ⟨s, tx, s'⟩) l' ∧ Leased codeHash a s' l' := by
  cases s with
  | none => exact absurd step not_step_none
  | some c =>
      cases l with
      | none => exact h.elim
      | some t =>
          obtain ⟨-, hplain, -, d, hc, rfl⟩ := h
          cases s' with
          | none => exact ⟨none, step.sweeps hc hplain, trivial⟩
          | some c' =>
              obtain ⟨t', hstep, hc'⟩ := step.turns hc hplain
              exact ⟨some t', hstep, hc'⟩

/-! ### Back -/

/-- The data of a lease. -/
def leaseData (t : Lease) : MatchData := ⟨0, BitVec.ofNat 64 t.rate, BitVec.ofNat 64 t.last⟩

/-- The cell that a lease is put into. -/
def leaseCell (codeHash : Byte32) (a : MatchArgs) (t : Lease) : LiveCell where
  toCell := matchOutput codeHash a (leaseData t) none t.pool
  outPoint := ⟨Vector.replicate 32 0, 0⟩
  header := ⟨Vector.replicate 32 0, BitVec.ofNat 64 t.block⟩

omit [ScriptHash] in
/-- The cell built from the numbers is a match with the args asked for. -/
theorem isMatch_leaseCell : IsMatch (leaseCell codeHash a t).toCell a (leaseData t) :=
  isMatch_matchOutput

omit [ScriptHash] in
theorem leaseCell_unoccupied (hfits : tenancyOccupied + t.pool < 2 ^ 64) :
    (leaseCell codeHash a t).unoccupied = t.pool := by
  refine matchOutput_unoccupied ?_
  rw [Option.elim_none, Nat.add_zero]
  exact hfits

omit [ScriptHash] in
theorem leaseCell_block (hblock : t.block < 2 ^ 64) : (leaseCell codeHash a t).block = t.block :=
  toNat_ofNat_of_lt hblock

omit [ScriptHash] in
/-- The numbers that are read off it are those it was built from, when each of them fits its
field. -/
theorem leaseOf_leaseCell (hrate : t.rate < 2 ^ 64) (hlast : t.last < 2 ^ 64)
    (hblock : t.block < 2 ^ 64) (hfits : tenancyOccupied + t.pool < 2 ^ 64) :
    leaseOf (leaseCell codeHash a t) (leaseData t) = t := by
  have hrate' : (leaseData t).shannonsPerBlock.toNat = t.rate := toNat_ofNat_of_lt hrate
  have hlast' : (leaseData t).lastExtractionBlock.toNat = t.last := toNat_ofNat_of_lt hlast
  rw [leaseOf, hrate', hlast', leaseCell_unoccupied hfits, leaseCell_block hblock]

omit [ScriptHash] in
theorem leaseCell_type : (leaseCell codeHash a t).type_ = none := matchOutput_type

omit [ScriptHash] in
theorem leaseCell_lock :
    (leaseCell codeHash a t).lock = opticrumLock codeHash a.toBytes.toList := rfl

omit [ScriptHash] in
/-- In all, it is an escrow in that state of the machine. -/
theorem isLease_leaseCell (hrate : t.rate < 2 ^ 64) (hlast : t.last < 2 ^ 64)
    (hblock : t.block < 2 ^ 64) (hfits : tenancyOccupied + t.pool < 2 ^ 64) :
    IsLease codeHash a (leaseCell codeHash a t) t where
  lock := by
    rw [leaseCell_lock]
    exact isOpticrumLock_opticrumLock _ _
  plain := leaseCell_type
  fits := matchOutput_fits
  decodes := ⟨leaseData t, isMatch_leaseCell, leaseOf_leaseCell hrate hlast hblock hfits⟩

/-- A cell of a party, next to the match. -/
def partyOf (address : Address) (c : LiveCell) : LiveCell :=
  partyCell address.script 0 ⟨Vector.replicate 32 0, 0⟩ c.header

/-- The cell of the channel that a match names. -/
def channelAt (o : OutPoint) (header : Header) : LiveCell where
  capacity := 0
  lock := ⟨Vector.replicate 32 0, .type, []⟩
  type_ := none
  data := []
  outPoint := o.packed
  header := header

/-- The header of a tip. -/
def tipHeader (tip : ℕ) : Header := ⟨Vector.replicate 32 0, BitVec.ofNat 64 tip⟩

omit [ScriptHash] in
/-- There is a header for every tip of 64 bits. -/
theorem tipHeader_number {tip : ℕ} (h : tip < 2 ^ 64) : (tipHeader tip).number.toNat = tip :=
  toNat_ofNat_of_lt h

section Spending

variable {party : Address} {outputs : List Cell} {cellDeps : List ResolvedDep}
  {headerDeps : List Header} {lockHash otherHash : Byte32} {tip : ℕ}

/-- The party next to the match signs. -/
theorem signed_partyOf (hparty : ActsFor codeHash party lockHash) :
    Signed (spend c (partyOf party c) outputs cellDeps headerDeps) lockHash :=
  signed_spend.mpr (.inr hparty.hash)

/-- The other one does not: neither the lock of the match nor that of the party has its hash. -/
theorem not_signed_partyOf (hparty : ActsFor codeHash party lockHash)
    (hlock : calcScriptHash c.lock ≠ otherHash) (hne : lockHash ≠ otherHash) :
    ¬ Signed (spend c (partyOf party c) outputs cellDeps headerDeps) otherHash := by
  rw [signed_spend]
  rintro (hmatch | hsigned)
  · exact hlock hmatch
  · exact hne (hparty.hash.symm.trans hsigned)

omit [ScriptHash] in
/-- The rent is due in a transaction that shows the tip and the block of the match. -/
theorem rentDue_spend {p : LiveCell} (htip : tip < 2 ^ 64) (hfits : rentAt c d tip < 2 ^ 64) :
    RentDue (spend c p outputs cellDeps [tipHeader tip, c.header]) c d tip := by
  refine ⟨?_, fun _ => hasHeader_spend (by simp), hfits⟩
  rw [tip?_spend, tipHeader_number htip]

omit [ScriptHash] in
/-- A dep at the out point is all the script asks of the channel. -/
theorem channelListed_spend {p : LiveCell} {o : OutPoint} {header : Header} :
    ChannelListed (spend c p outputs [.code (channelAt o header)] headerDeps) o :=
  ⟨_, List.mem_cons_self, OutPoint.isAt_iff.mpr rfl⟩

end Spending

/-- The cells of a lease and of what it becomes, as the script compares them. -/
structure Successor (codeHash : Byte32) (a : MatchArgs) (c : LiveCell) (t t' : Lease)
    (d : MatchData) : Prop where
  old : IsMatch c.toCell a d
  lease : leaseOf c d = t
  new : IsLease codeHash a (leaseCell codeHash a t') t'
  xudt : xudtOf c.toCell = xudtOf (leaseCell codeHash a t').toCell
  rate : d.shannonsPerBlock = (leaseData t').shannonsPerBlock
  last : (leaseData t').lastExtractionBlock.toNat = t'.last
  unoccupied : (leaseCell codeHash a t').unoccupied = t'.pool
  block : (leaseCell codeHash a t').block = t'.block

omit [ScriptHash] in
/-- For every state that may follow there is a cell to go on in, with data that stores the
block. -/
theorem IsLease.exists_successor (h : IsLease codeHash a c t) (follows : t'.Follows t)
    (hlast : t'.last < 2 ^ 64) : ∃ d, Successor codeHash a c t t' d := by
  obtain ⟨d, hc, hlease⟩ := h.decodes
  have hrate : t'.rate = d.shannonsPerBlock.toNat := by rw [follows.rate, ← hlease, leaseOf]
  have hlt : t'.rate < 2 ^ 64 := hrate ▸ d.shannonsPerBlock.isLt
  refine ⟨d, hc, hlease, isLease_leaseCell hlt hlast follows.dated follows.fits, ?_, ?_,
    toNat_ofNat_of_lt hlast, leaseCell_unoccupied follows.fits, leaseCell_block follows.dated⟩
  · rw [hc.xudtOf_eq, isMatch_leaseCell.xudtOf_eq, h.plain, leaseCell_type]
    rfl
  · rw [leaseData, hrate, BitVec.ofNat_toNat, BitVec.setWidth_eq]

omit [ScriptHash] in
/-- The stored block fits in its field. -/
theorem IsLease.last_lt (h : IsLease codeHash a c t) : t.last < 2 ^ 64 := by
  obtain ⟨d, -, rfl⟩ := h.decodes
  exact d.lastExtractionBlock.isLt

/-- The party turns the match in `c` into `t'`. -/
def turn (codeHash : Byte32) (a : MatchArgs) (party : Address) (c : LiveCell) (t' : Lease)
    (cellDeps : List ResolvedDep) (headerDeps : List Header) : Transaction :=
  spend c (partyOf party c) [(leaseCell codeHash a t').toCell] cellDeps headerDeps

/-- Turning a match into a lease that follows is a step, when the script's demands are met. -/
theorem IsLease.step_turn (h : IsLease codeHash a c t) (follows : t'.Follows t) {party : Address}
    {lockHash : Byte32} (hparty : ActsFor codeHash party lockHash) (hlast : t'.last < 2 ^ 64)
    {cellDeps : List ResolvedDep} {headerDeps : List Header}
    (hheaders : ∀ h ∈ headerDeps, h.number.toNat ≤ t'.block)
    (htransition : Transition (turn codeHash a party c t' cellDeps headerDeps) c
      (some (leaseCell codeHash a t').toCell)) :
    Step codeHash (some c) (turn codeHash a party c t' cellDeps headerDeps)
      (some (leaseCell codeHash a t')) := by
  obtain ⟨d, hnext⟩ := h.exists_successor follows hlast
  have hblock : c.block = t.block := hnext.lease ▸ rfl
  refine step_spend_replace h.lock hparty.ordinary hnext.new.lock ⟨h.fits, hnext.new.fits⟩
    htransition ?_ ?_
  · rw [hnext.block, hblock]
    exact follows.later
  · rw [hnext.block]
    exact hheaders

/-- The lock of a match is not one of its parties'. -/
theorem PartiesApart.lock_ne (hapart : PartiesApart codeHash a) (h : IsLease codeHash a c t) :
    calcScriptHash c.lock ≠ a.orderArgs.buyerLockHash ∧
      calcScriptHash c.lock ≠ a.sellerLockHash := by
  obtain ⟨d, hc, -⟩ := h.decodes
  rw [hc.lock_eq h.lock]
  exact ⟨hapart.notBuyer, hapart.notSeller⟩

/-- The seller's turn, showing the tip and the block of the match next to its channel. -/
def sellerTurn (codeHash : Byte32) (a : MatchArgs) (seller : Address) (c : LiveCell)
    (t' : Lease) : Transaction :=
  turn codeHash a seller c t' [.code (channelAt a.channelOutpoint c.header)]
    [tipHeader t'.last, c.header]

/-- The machine extracts, and so does the escrow: the seller's transaction lists the channel,
the tip and the block of the match, and takes the rent. -/
theorem IsLease.extract {seller : Address} (hapart : PartiesApart codeHash a)
    (hseller : ActsFor codeHash seller a.sellerLockHash) (h : IsLease codeHash a c t)
    (follows : t'.Follows t) (shown : t'.last ≤ t'.block) (halive : t.rent t'.last < t.pool)
    (hexact : t.pool - t'.pool = t.rent t'.last) :
    ∃ tx c', Step codeHash (some c) tx (some c') ∧ IsLease codeHash a c' t' ∧
      eventOf ⟨some c, tx, some c'⟩ = .extract t'.last ∧
        ¬ Signed tx a.orderArgs.buyerLockHash := by
  have hlast : t'.last < 2 ^ 64 := shown.trans_lt follows.dated
  obtain ⟨d, hnext⟩ := h.exists_successor follows hlast
  obtain rfl := hnext.lease
  rw [rent_leaseOf] at halive hexact
  have hsigned : Signed (sellerTurn codeHash a seller c t') a.sellerLockHash :=
    signed_partyOf hseller
  have hunsigned : ¬ Signed (sellerTurn codeHash a seller c t') a.orderArgs.buyerLockHash :=
    not_signed_partyOf hseller (hapart.lock_ne h).1 hapart.parties.symm
  have hlisted : ChannelListed (sellerTurn codeHash a seller c t') a.channelOutpoint :=
    channelListed_spend
  -- the rent is below the pool, which is part of a capacity
  have hdue : RentDue (sellerTurn codeHash a seller c t') c d t'.last :=
    rentDue_spend hlast (halive.trans ((Nat.sub_le _ _).trans_lt c.capacity.isLt))
  have htransition : Transition (sellerTurn codeHash a seller c t') c
      (some (leaseCell codeHash a t').toCell) := by
    refine .sellerExtract hnext.old isMatch_leaseCell hnext.xudt hnext.rate hsigned hunsigned
      hlisted hdue ?_ ?_ hnext.last
    · rw [valueOf_of_type_none hnext.old h.plain]
      exact halive
    · rw [extracted_of_type_none hnext.old h.plain, hnext.unoccupied]
      exact hexact
  refine ⟨_, _, h.step_turn follows hseller hlast ?_ htransition, hnext.new,
    eventOf_extract ((bySeller_iff hnext.old).mpr ⟨hsigned, hunsigned⟩) hdue.isTip, hunsigned⟩
  -- the tip and the block of the match, neither of them later than the successor
  intro header hheader
  rcases List.mem_pair.mp hheader with rfl | rfl
  · rwa [tipHeader_number hlast]
  · exact follows.later

/-- The machine updates, and so does the escrow: a transaction with the buyer's cell next to the
match is all it takes. -/
theorem IsLease.update {buyer : Address} (hapart : PartiesApart codeHash a)
    (hbuyer : ActsFor codeHash buyer a.orderArgs.buyerLockHash) (h : IsLease codeHash a c t)
    (follows : t'.Follows t) (last : t'.last = t.last) :
    ∃ tx c', Step codeHash (some c) tx (some c') ∧ IsLease codeHash a c' t' ∧
      eventOf ⟨some c, tx, some c'⟩ = .update := by
  have hlast : t'.last < 2 ^ 64 := last ▸ h.last_lt
  obtain ⟨d, hnext⟩ := h.exists_successor follows hlast
  have hclock : (leaseData t').lastExtractionBlock = d.lastExtractionBlock := by
    refine BitVec.eq_of_toNat_eq ?_
    rw [hnext.last, last, ← hnext.lease, leaseOf]
  have hsigned : Signed (turn codeHash a buyer c t' [] []) a.orderArgs.buyerLockHash :=
    signed_partyOf hbuyer
  have hunsigned : ¬ Signed (turn codeHash a buyer c t' [] []) a.sellerLockHash :=
    not_signed_partyOf hbuyer (hapart.lock_ne h).2 hapart.parties
  have hnot : bySeller (turn codeHash a buyer c t' [] []) c.toCell = false :=
    bySeller_of_unsigned hnext.old hunsigned
  have hstep := h.step_turn follows hbuyer hlast (List.forall_mem_nil _)
    (.buyerUpdate hnext.old isMatch_leaseCell hnext.xudt hnext.rate hunsigned hsigned hclock)
  exact ⟨_, _, hstep, hnext.new, eventOf_update hnot⟩

/-- The machine sweeps, and so does the escrow: the seller takes the match and leaves nothing
under the contract's lock. -/
theorem IsLease.sweep {seller : Address} (hapart : PartiesApart codeHash a)
    (hseller : ActsFor codeHash seller a.sellerLockHash) (h : IsLease codeHash a c t) {tip : ℕ}
    (dated : tip < 2 ^ 64) (exhausted : t.pool ≤ t.rent tip) (fits : t.rent tip < 2 ^ 64) :
    ∃ tx, Step codeHash (some c) tx none ∧ eventOf ⟨some c, tx, none⟩ = .sweep tip ∧
      ¬ Signed tx a.orderArgs.buyerLockHash := by
  obtain ⟨d, hc, rfl⟩ := h.decodes
  rw [rent_leaseOf] at exhausted fits
  have hdue : RentDue (spend c (partyOf seller c) [] [] [tipHeader tip, c.header]) c d tip :=
    rentDue_spend dated fits
  have hunsigned : ¬ Signed (spend c (partyOf seller c) [] [] [tipHeader tip, c.header])
      a.orderArgs.buyerLockHash :=
    not_signed_partyOf hseller (hapart.lock_ne h).1 hapart.parties.symm
  refine ⟨_, step_spend_close h.lock hseller.ordinary (List.forall_mem_nil _) h.fits
    (.matchDestroy hc (signed_partyOf hseller) hdue ?_), eventOf_sweep hdue.isTip, hunsigned⟩
  rw [valueOf_of_type_none hc h.plain]
  exact exhausted

/-- Every step of the machine but an update is one of the contract, without the buyer. -/
theorem Leased.back_of_seller {seller : Address} (hapart : PartiesApart codeHash a)
    (hseller : ActsFor codeHash seller a.sellerLockHash) {s : Option LiveCell}
    {l l' : Option Lease} {event : Lease.Event} (step : Lease.Step l event l')
    (hne : event ≠ .update) (h : Leased codeHash a s l) :
    ∃ tx s', Step codeHash s tx s' ∧ Leased codeHash a s' l' ∧ eventOf ⟨s, tx, s'⟩ = event ∧
      ¬ Signed tx a.orderArgs.buyerLockHash := by
  cases s with
  | none =>
      cases step <;> exact h.elim
  | some c =>
      cases step with
      | extract follows shown alive exact =>
          obtain ⟨tx, c', hstep, hc', hevent⟩ :=
            IsLease.extract hapart hseller h follows shown alive exact
          exact ⟨tx, some c', hstep, hc', hevent⟩
      | update => exact absurd rfl hne
      | sweep dated exhausted fits =>
          obtain ⟨tx, hstep, hevent⟩ := IsLease.sweep hapart hseller h dated exhausted fits
          exact ⟨tx, none, hstep, trivial, hevent⟩

/-- Every step of the machine is one of the contract. -/
theorem Leased.back {seller buyer : Address} (hapart : PartiesApart codeHash a)
    (hseller : ActsFor codeHash seller a.sellerLockHash)
    (hbuyer : ActsFor codeHash buyer a.orderArgs.buyerLockHash) {s : Option LiveCell}
    {l l' : Option Lease} {event : Lease.Event} (step : Lease.Step l event l')
    (h : Leased codeHash a s l) :
    ∃ tx s', Step codeHash s tx s' ∧ Leased codeHash a s' l' ∧ eventOf ⟨s, tx, s'⟩ = event := by
  by_cases hupdate : event = .update
  · subst hupdate
    cases step with
    | update follows last =>
        cases s with
        | none => exact h.elim
        | some c =>
            obtain ⟨tx, c', hstep, hc', hevent⟩ := IsLease.update hapart hbuyer h follows last
            exact ⟨tx, some c', hstep, hc', hevent⟩
  · obtain ⟨tx, s', hstep, hs', hevent, -⟩ := h.back_of_seller hapart hseller step hupdate
    exact ⟨tx, s', hstep, hs', hevent⟩

/-- **The escrow is the machine.** From a match for capacity whose parties differ and can sign,
exactly the sequences of events that lead the machine from its numbers to some state are those
that lead the contract there.

One direction is a simulation step by step: every accepted transaction reads as an event of the
machine.  For the other a transaction is built for every event, with a cell of the party that
acts and a dep at the out point of the channel. -/
theorem lease_traces {seller buyer : Address} (hapart : PartiesApart codeHash a)
    (hseller : ActsFor codeHash seller a.sellerLockHash)
    (hbuyer : ActsFor codeHash buyer a.orderArgs.buyerLockHash)
    (h : IsLease codeHash a c t) (events : List Lease.Event) (l : Option Lease) :
    (∃ moves s, Run (Step codeHash) (some c) moves s ∧ Leased codeHash a s l ∧
        moves.map eventOf = events) ↔
      ∃ moves, Run Lease.Step (some t) moves l ∧ moves.map Move.label = events := by
  have hstart : Leased codeHash a (some c) (some t) := h
  refine Run.traces_iff (R := Leased codeHash a) ?_ ?_ leased_unique hstart
  · intro s tx s' l step hs
    exact hs.forth step
  · intro s l event l' step hs
    exact hs.back hapart hseller hbuyer step

omit [ScriptHash] in
/-- A state may follow itself; numbers that are read off a cell fit. -/
theorem IsLease.follows (h : IsLease codeHash a c t) : t.Follows t := by
  obtain ⟨d, hc, rfl⟩ := h.decodes
  exact ⟨rfl, le_rfl, c.header.number.isLt, hc.pool_fits⟩

/-- **What an escrow reaches.** Every run of a match for capacity ends in a state that its
numbers allow: the rate stays, the blocks of its cells go on, and the last extraction is that of
the start or no later than the cell.  The parties get it to every such state, and to its end.

The pool is not restricted beyond what fits, since the buyer may set it; nor is the last
extraction tied to that of the start, as the seller may turn the clock back. -/
theorem lease_reaches {seller buyer : Address} (hapart : PartiesApart codeHash a)
    (hseller : ActsFor codeHash seller a.sellerLockHash)
    (hbuyer : ActsFor codeHash buyer a.orderArgs.buyerLockHash)
    (h : IsLease codeHash a c t) :
    (∀ {moves s}, Run (Step codeHash) (some c) moves s →
        ∃ l, Leased codeHash a s l ∧ t.Reaches l) ∧
      ∀ {l}, t.Reaches l →
        ∃ moves s, Run (Step codeHash) (some c) moves s ∧ Leased codeHash a s l := by
  have hstart : Leased codeHash a (some c) (some t) := h
  constructor
  · intro moves s run
    obtain ⟨amoves, l, arun, hl, -⟩ : ∃ amoves l, Run Lease.Step (some t) amoves l ∧
        Leased codeHash a s l ∧ List.Forall₂ (fun _ _ => True) moves amoves := by
      refine run.simulate ?_ hstart
      intro s tx s' l step hs
      obtain ⟨l', hstep, hs'⟩ := hs.forth step
      exact ⟨_, l', hstep, hs', trivial⟩
    -- a run keeps what is reached from the start
    have hself : t.Reaches (some t) := ⟨h.follows, .inl rfl⟩
    exact ⟨l, hl, arun.invariant Lease.Reaches.step hself⟩
  · intro l hreaches
    obtain ⟨amoves, arun⟩ := Lease.exists_run h.follows hreaches
    obtain ⟨moves, s, run, hs, -⟩ : ∃ moves s, Run (Step codeHash) (some c) moves s ∧
        Leased codeHash a s l ∧ List.Forall₂ (fun _ _ => True) amoves moves := by
      refine arun.simulate (R := fun l s => Leased codeHash a s l) ?_ hstart
      intro l event l' s step hs
      obtain ⟨tx, s', hstep, hs', -⟩ := hs.back hapart hseller hbuyer step
      exact ⟨tx, s', hstep, hs', trivial⟩
    exact ⟨moves, s, run, hs⟩

end Bisimulation

end Cells

/-! ## In the market -/

namespace Market

theorem isLease_running : IsLease codeHash matchArgs running.toLiveCell ⟨3, 100000, 0, 1000⟩ where
  lock := isOpticrumLock_matchCell
  plain := rfl
  fits := matchCell_fits
  decodes := by
    have hpool : running.unoccupied = 100000 := matchCell_unoccupied (by decide)
    have hblock : running.block = 1000 := matchCell_block (by decide)
    refine ⟨⟨0, 3, 0⟩, isMatch_matchOutput, ?_⟩
    rw [leaseOf, hpool, hblock]
    rfl

/-- The seller extracts 300 shannons at block 1100, the buyer takes all but 50 out, the
seller turns the clock back to block 10, adding 10, and sweeps the 60 with the rent of 990
blocks. -/
theorem running_traced :
    ∃ moves s, Run (Step codeHash) (some running.toLiveCell) moves s ∧
      Leased codeHash matchArgs s none ∧
        moves.map eventOf = [.extract 1100, .update, .extract 10, .sweep 1000] := by
  have hafter : Lease.Follows ⟨3, 99700, 1100, 1105⟩ ⟨3, 100000, 0, 1000⟩ :=
    ⟨rfl, by decide, by decide, by decide⟩
  have hextract : Lease.Step (some ⟨3, 100000, 0, 1000⟩) (.extract 1100)
      (some ⟨3, 99700, 1100, 1105⟩) :=
    .extract hafter (by decide) (by decide) (by decide)
  have hupdate : Lease.Step (some ⟨3, 99700, 1100, 1105⟩) .update (some ⟨3, 50, 1100, 1110⟩) :=
    .update ⟨rfl, by decide, by decide, by decide⟩ rfl
  have hlater : Lease.Follows ⟨3, 60, 10, 1120⟩ ⟨3, 50, 1100, 1110⟩ :=
    ⟨rfl, by decide, by decide, by decide⟩
  have hback : Lease.Step (some ⟨3, 50, 1100, 1110⟩) (.extract 10) (some ⟨3, 60, 10, 1120⟩) :=
    .extract hlater (by decide) (by decide) (by decide)
  have hsweep : Lease.Step (some ⟨3, 60, 10, 1120⟩) (.sweep 1000) none :=
    .sweep (by decide) (by decide) (by decide)
  exact (lease_traces partiesApart_matchArgs actsFor_seller actsFor_buyer isLease_running _
    none).mpr ⟨_, .cons hextract (.cons hupdate (.cons hback (.single hsweep))), rfl⟩

/-- The clock of the match that runs since block 1000 is brought to block 17, with a pool of
a million shannons, by a cell of block 2000. -/
theorem running_reaches :
    ∃ moves s, Run (Step codeHash) (some running.toLiveCell) moves s ∧
      Leased codeHash matchArgs s (some ⟨3, 1000000, 17, 2000⟩) := by
  have hreaches : Lease.Reaches ⟨3, 100000, 0, 1000⟩ (some ⟨3, 1000000, 17, 2000⟩) :=
    ⟨⟨rfl, by decide, by decide, by decide⟩, .inr (by decide)⟩
  exact (lease_reaches partiesApart_matchArgs actsFor_seller actsFor_buyer isLease_running).2
    hreaches

end Market

end Opticrum
