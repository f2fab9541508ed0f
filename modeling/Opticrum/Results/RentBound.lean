import Opticrum.Contract.Construct
import Opticrum.Results.RentClock

/-!
# The cumulative rent

Over a run of a CKB-only Match cell the seller takes what he extracts and, at the
end, what he sweeps.  The rent the terms promise for the whole run is the rate
times the blocks between the match and the latest header he showed.

A run is metered: the rent base of the current cell is the clock, a seller
extraction is a reading dated by `HeaderDep[0]`, a buyer update is idle.
`clocked_simulates` answers every step of the lifecycle by a step of the meter
that charges for at least what the seller took, so the meter law bounds the total.

## What the simulation needs

`elapsed` is a saturating difference, and nothing asks the header of an
extraction to be later than the clock.  A seller who shows an older header takes
nothing, but writes that older block into `last_extraction_block`, and the clock
runs backwards.  `ClockKept` excludes exactly that.  The genesis header is
harmless: block 0 reads as "never extracted", and the clock moves to the block of
the successor.

## What it does not say

The bound is for a match without a type script, from the moment it is matched, in runs of any
length in which both parties act.  It does not say that the seller gets this much; the buyer may
withdraw before he extracts.  The exact account, including runs that do not keep the clock, is
in `Opticrum.Results.Ledger`.
-/

namespace Opticrum

open Rust Ckb TransitionSystem

section Bound

variable [ScriptHash]

/-- CKB the seller takes in a move: the decrease of the pool in an extraction,
all of it when the cell is destroyed. -/
def taken (m : Move (Option LiveCell) Transaction) : ℕ :=
  match m.source, m.target with
  | some c, some c' => if bySeller m.label c.toCell then c.unoccupied - c'.unoccupied else 0
  | some c, none => c.unoccupied
  | none, _ => 0

/-- The block number of `HeaderDep[0]`, when the move is the seller's. -/
def sellerTip? (m : Move (Option LiveCell) Transaction) : Option ℕ :=
  match m.source, m.target with
  | some c, some _ => if bySeller m.label c.toCell then tip? m.label else none
  | some _, none => tip? m.label
  | none, _ => none

/-- CKB the seller takes over a run. -/
def totalTaken (moves : List (Move (Option LiveCell) Transaction)) : ℕ := (moves.map taken).sum

/-- The latest block the seller shows in a run, `0` when he shows none.  The one he shows at the
destruction counts as well. -/
def latestTip (moves : List (Move (Option LiveCell) Transaction)) : ℕ :=
  (moves.filterMap sellerTip?).foldr max 0

/-- The seller takes at most the rent of the blocks between `base` and the latest
block he shows. -/
def RentBounded (rate base : ℕ) (moves : List (Move (Option LiveCell) Transaction)) : Prop :=
  totalTaken moves ≤ rate * (latestTip moves - base)

/-- An extraction shows no block before the rent base of the cell it consumes.  Nothing is asked
of the buyer, who cannot set the base back. -/
def ClockKept (m : Move (Option LiveCell) Transaction) : Prop :=
  ∀ c c' a d tip, m.source = some c → m.target = some c' → IsMatch c.toCell a d →
    bySeller m.label c.toCell = true → tip? m.label = some tip → tip = 0 ∨ rentBase c d ≤ tip

/-! ## The simulation -/

/-- The escrow is a CKB-only Match cell of rate `rate` whose rent base is `clock`.
The block it was last extracted at is not in the future of its own block. -/
def Clocked (rate : ℕ) : Option LiveCell → ℕ → Prop
  | none, _ => True
  | some c, clock => c.type_ = none ∧ ∃ a d, IsMatch c.toCell a d ∧
      d.shannonsPerBlock.toNat = rate ∧ rentBase c d = clock ∧
      d.lastExtractionBlock.toNat ≤ c.block

/-- The meter charges a move for at least what the seller takes, and reads only
headers he shows. -/
def Covers (rate : ℕ) (m : Move (Option LiveCell) Transaction) (am : Move ℕ Meter.Event) :
    Prop :=
  taken m ≤ rate * Meter.charge am ∧ ∀ t, am.label = .reading t → sellerTip? m = some t

/-- A destroyed cell held no more than the rent since its clock, so either the
meter is read or there was nothing left. -/
theorem covers_close {c : LiveCell} {tx : Transaction} {a : MatchArgs} {d : MatchData} {tip : ℕ}
    (hc : IsMatch c.toCell a d) (htype : c.type_ = none) (due : RentDue tx c d tip)
    (exhausted : valueOf c.toCell ≤ rentAt c d tip) :
    ∃ ev clock', Meter.Step (rentBase c d) ev clock' ∧
      Covers d.shannonsPerBlock.toNat ⟨some c, tx, none⟩ ⟨rentBase c d, ev, clock'⟩ := by
  rw [valueOf_of_type_none hc htype] at exhausted
  by_cases hle : rentBase c d ≤ tip
  · refine ⟨.reading tip, tip, .reading hle le_rfl, exhausted, fun t ht => ?_⟩
    obtain rfl := Meter.Event.reading.inj ht
    exact due.isTip
  · refine ⟨.idle, rentBase c d, .idle le_rfl, ?_, by simp⟩
    rw [rentAt, Nat.sub_eq_zero_of_le (Nat.le_of_not_le hle)] at exhausted
    exact exhausted

/-- An extraction takes the rent since the clock and resets the clock. -/
theorem covers_extract {c c' : LiveCell} {tx : Transaction} {a : MatchArgs} {d d' : MatchData}
    {tip : ℕ} (hc : IsMatch c.toCell a d) (htype : c.type_ = none)
    (hseller : bySeller tx c.toCell = true) (due : RentDue tx c d tip)
    (exact : extracted c.toCell c'.toCell d' = rentAt c d tip)
    (clock : d'.lastExtractionBlock.toNat = tip) (hkept : tip = 0 ∨ rentBase c d ≤ tip)
    (hlater : c.block ≤ c'.block) (hpast : d.lastExtractionBlock.toNat ≤ c.block) :
    ∃ ev, Meter.Step (rentBase c d) ev (rentBase c' d') ∧
      Covers d.shannonsPerBlock.toNat ⟨some c, tx, some c'⟩
        ⟨rentBase c d, ev, rentBase c' d'⟩ := by
  have htaken : taken ⟨some c, tx, some c'⟩ = d.shannonsPerBlock.toNat * (tip - rentBase c d) := by
    have hextracted : extracted c.toCell c'.toCell d' = c.unoccupied - c'.unoccupied :=
      extracted_of_type_none hc htype
    simp only [taken, hseller, if_true]
    rw [← hextracted, exact, rentAt]
  by_cases hle : rentBase c d ≤ tip
  · have hclock : tip ≤ rentBase c' d' := le_rentBase_of_clock clock
    refine ⟨.reading tip, .reading hle hclock, htaken.le, fun t ht => ?_⟩
    obtain rfl := Meter.Event.reading.inj ht
    simp only [sellerTip?, hseller, if_true]
    exact due.isTip
  · -- block 0 reads as "never extracted": the clock moves to the successor's block
    obtain rfl : tip = 0 := hkept.resolve_right hle
    have hzero : d'.lastExtractionBlock = 0 := BitVec.eq_of_toNat_eq clock
    have hbase : rentBase c d ≤ c.block := by
      unfold rentBase
      split
      · exact le_rfl
      · exact hpast
    refine ⟨.idle, .idle ?_, ?_, by simp⟩
    · rw [rentBase_of_eq_zero hzero]
      exact hbase.trans hlater
    · rw [htaken, Nat.zero_sub, Nat.mul_zero]
      exact Nat.zero_le _

/-- **One step.**  Every step of a clocked escrow that keeps the clock is answered
by a step of the meter. -/
theorem clocked_simulates {codeHash : Byte32} {rate : ℕ} {s s' : Option LiveCell}
    {tx : Transaction} {clock : ℕ} (step : Step codeHash s tx s')
    (hkept : ClockKept ⟨s, tx, s'⟩) (hs : Clocked rate s clock) :
    ∃ ev clock', Meter.Step clock ev clock' ∧ Clocked rate s' clock' ∧
      Covers rate ⟨s, tx, s'⟩ ⟨clock, ev, clock'⟩ := by
  cases s with
  | none => exact absurd step not_step_none
  | some c =>
      obtain ⟨htype, a, d, hc, rfl, rfl, hpast⟩ := hs
      have htransition := step.transition
      cases s' with
      | none =>
          cases htransition with
          | orderCancel old => exact absurd old hc.not_isOrder
          | matchDestroy old signed due exhausted =>
              obtain ⟨rfl, rfl⟩ := hc.unique old
              obtain ⟨ev, clock', hmeter, hcovers⟩ := covers_close hc htype due exhausted
              exact ⟨ev, clock', hmeter, trivial, hcovers⟩
      | some c' =>
          have hlater := step.later
          cases htransition with
          | orderMatch old => exact absurd old hc.not_isOrder
          | sellerExtract old new xudt rate signed unsigned listed due alive exact clock =>
              obtain ⟨rfl, rfl⟩ := hc.unique old
              have hseller := (bySeller_iff hc).mpr ⟨signed, unsigned⟩
              obtain ⟨ev, hmeter, hcovers⟩ := covers_extract hc htype hseller due exact clock
                (hkept c c' a d _ rfl rfl hc hseller due.isTip) hlater hpast
              refine ⟨ev, _, hmeter, ⟨?_, a, _, new, ?_, rfl, ?_⟩, hcovers⟩
              · exact (type_eq_of_xudtOf_eq hc new xudt).symm.trans htype
              · rw [rate]
              · exact clock ▸ step.tip_le due.isTip
          | buyerUpdate old new xudt rate unsigned signed clock =>
              obtain ⟨rfl, rfl⟩ := hc.unique old
              have hidle : bySeller tx c.toCell = false := by
                rw [Bool.eq_false_iff, Ne, bySeller_iff hc]
                exact fun h => unsigned h.1
              -- a buyer update takes nothing, and moves the base at most ahead
              refine ⟨.idle, _, .idle ?_, ⟨?_, a, _, new, ?_, rfl, ?_⟩, ?_, by simp⟩
              · exact rentBase_le_of_clock_eq clock hlater
              · exact (type_eq_of_xudtOf_eq hc new xudt).symm.trans htype
              · rw [rate]
              · exact clock ▸ hpast.trans hlater
              · simp [taken, hidle]

/-! ## Summing up -/

theorem totalTaken_le_of_covers {rate : ℕ} {moves : List (Move (Option LiveCell) Transaction)}
    {amoves : List (Move ℕ Meter.Event)} (h : List.Forall₂ (Covers rate) moves amoves) :
    totalTaken moves ≤ rate * (amoves.map Meter.charge).sum := by
  induction h with
  | nil => exact Nat.zero_le _
  | cons hcovers _ ih =>
      rw [totalTaken, List.map_cons, List.sum_cons, List.map_cons, List.sum_cons, Nat.mul_add]
      exact Nat.add_le_add hcovers.1 ih

theorem latest_le_of_covers {rate : ℕ} {moves : List (Move (Option LiveCell) Transaction)}
    {amoves : List (Move ℕ Meter.Event)} (h : List.Forall₂ (Covers rate) moves amoves) :
    Meter.latest (amoves.map Move.label) ≤ latestTip moves := by
  induction h with
  | nil => exact Nat.zero_le _
  | @cons m am moves amoves hcovers _ ih =>
      have htail : latestTip moves ≤ latestTip (m :: moves) := by
        unfold latestTip
        rw [List.filterMap_cons]
        split
        · exact le_rfl
        · exact le_max_right _ _
      rw [List.map_cons]
      cases hlabel : am.label with
      | idle => exact ih.trans htail
      | reading t =>
          rw [Meter.latest]
          refine max_le ?_ (ih.trans htail)
          rw [latestTip, List.filterMap_cons, hcovers.2 t hlabel]
          exact le_max_left _ _

/-- **The cumulative rent.** In a run that keeps the clock, the seller takes no more than the
rent between the match and the latest header he shows.

The induction goes over the run and carries the meter: what has been taken so far is the rent up
to the base of the cell the run has reached, and the base is no later than the latest header.  A
run that does not keep the clock has no such bound, since a header from before the base sets it
back at no cost (`Market.backdated_not_rentBounded`). -/
theorem rentBounded_of_clockKept {codeHash : Byte32} {c : MatchCell} (htype : c.type_ = none)
    (hfresh : c.matchData.lastExtractionBlock = 0)
    {moves : List (Move (Option LiveCell) Transaction)} {s : Option LiveCell}
    (run : Run (Step codeHash) (some c.toLiveCell) moves s)
    (hkept : ∀ m ∈ moves, ClockKept m) :
    RentBounded c.matchData.shannonsPerBlock.toNat c.block moves := by
  have hstart : Clocked c.matchData.shannonsPerBlock.toNat (some c.toLiveCell) c.block :=
    ⟨htype, c.args, c.matchData, c.decodes, rfl, rentBase_of_eq_zero hfresh, by simp [hfresh]⟩
  obtain ⟨amoves, clock', hmeter, -, hcovers⟩ :=
    (run.restrict hkept).simulate (fun h hs => clocked_simulates h.1 h.2 hs) hstart
  calc totalTaken moves
      ≤ _ * (amoves.map Meter.charge).sum := totalTaken_le_of_covers hcovers
    _ ≤ _ * (Meter.latest (amoves.map Move.label) - c.block) :=
        Nat.mul_le_mul_left _ (Meter.total_le hmeter)
    _ ≤ _ * (latestTip moves - c.block) :=
        Nat.mul_le_mul_left _ (Nat.sub_le_sub_right (latest_le_of_covers hcovers) _)

end Bound

/-! ## In the market -/

namespace Market

/-- The seller extracts from `c` at the block `tip`, leaving `o`. -/
def extractTx (c : MatchCell) (o : Cell) (tip : ℕ) : Transaction :=
  spend c.toLiveCell sellerCell [o, sellerCell.toCell] [.code channelCell] [headerAt tip, c.header]

theorem channelListed_extractTx (c : MatchCell) (o : Cell) (tip : ℕ) :
    ChannelListed (extractTx c o tip) matchArgs.channelOutpoint :=
  ⟨⟨channelCell.outPoint, .code⟩,
    by simp [extractTx, spend, Transaction.rawCellDeps, ResolvedDep.code], by decide⟩

/-- A CKB-only extraction of exactly the rent is a step. -/
theorem step_extract {d d' : MatchData} {pool pool' index index' block block' tip : ℕ}
    (hblocks : block ≤ block' ∧ tip ≤ block' ∧ block' < 2 ^ 64)
    (hfits : 20600000000 + pool < 2 ^ 64)
    (hrent : rentAt (matchCell d none pool index block).toLiveCell d tip + pool' = pool)
    (hpool : 0 < pool') (hdata : d' = { d with lastExtractionBlock := BitVec.ofNat 64 tip }) :
    Step codeHash (some (matchCell d none pool index block).toLiveCell)
      (extractTx (matchCell d none pool index block)
        (matchCell d' none pool' index' block').toCell tip)
      (some (matchCell d' none pool' index' block').toLiveCell) := by
  obtain ⟨hblock, htip, hblock'⟩ := hblocks
  have hunocc : (matchCell d none pool index block).unoccupied = pool :=
    matchCell_unoccupied hfits
  have hunocc' : (matchCell d' none pool' index' block').unoccupied = pool' :=
    matchCell_unoccupied (by simp only [Option.elim_none, oneCkb]; omega)
  have hold : IsMatch (matchCell d none pool index block).toCell matchArgs d :=
    isMatch_matchOutput
  have hsigned : Signed (extractTx (matchCell d none pool index block)
        (matchCell d' none pool' index' block').toCell tip) sellerLockHash ∧
      ¬ Signed (extractTx (matchCell d none pool index block)
        (matchCell d' none pool' index' block').toCell tip) buyerLockHash :=
    signed_spend_sellerCell rfl
  have hdue : RentDue (extractTx (matchCell d none pool index block)
      (matchCell d' none pool' index' block').toCell tip)
      (matchCell d none pool index block).toLiveCell d tip := by
    refine ⟨?_, fun _ => hasHeader_spend (by simp), by omega⟩
    rw [extractTx, tip?_spend, headerAt_number (by omega)]
  refine step_spend_replace isOpticrumLock_matchCell (by decide) isOpticrumLock_matchCell
    ⟨matchCell_fits, matchCell_fits⟩ ?_ ?_ ?_
  · refine .sellerExtract hold isMatch_matchOutput ?_ (by rw [hdata])
      hsigned.1 hsigned.2 (channelListed_extractTx _ _ _) hdue ?_ ?_ ?_
    · rw [matchCell_xudtOf, matchCell_xudtOf, hdata]
    · rw [valueOf_of_type_none hold rfl, hunocc]
      omega
    · rw [extracted_of_type_none hold rfl, hunocc, hunocc']
      omega
    · rw [hdata, toNat_ofNat_of_lt (by omega)]
  · rw [matchCell_block (by omega), matchCell_block (by omega)]
    exact hblock
  · intro h hh
    rw [matchCell_block (by omega)]
    rcases List.mem_pair.mp hh with rfl | rfl
    · exact (headerAt_number (by omega)).trans_le htip
    · exact (matchCell_block (by omega)).trans_le hblock

theorem bySeller_extractTx {d : MatchData} {pool index block tip : ℕ} {o : Cell} :
    bySeller (extractTx (matchCell d none pool index block) o tip)
      (matchCell d none pool index block).toCell = true :=
  (bySeller_iff isMatch_matchOutput).mpr (signed_spend_sellerCell rfl)

/-- What an extraction of the market takes. -/
theorem taken_extractTx {d d' : MatchData} {pool pool' index index' block block' tip : ℕ}
    (hfits : 20600000000 + pool < 2 ^ 64) (hle : pool' ≤ pool) :
    taken ⟨some (matchCell d none pool index block).toLiveCell,
      extractTx (matchCell d none pool index block)
        (matchCell d' none pool' index' block').toCell tip,
      some (matchCell d' none pool' index' block').toLiveCell⟩ = pool - pool' := by
  simp only [taken, bySeller_extractTx, if_true]
  rw [matchCell_unoccupied hfits, matchCell_unoccupied]
  simp only [Option.elim_none, oneCkb]
  omega

theorem sellerTip?_extractTx {d : MatchData} {pool index block tip : ℕ} {c' : LiveCell}
    (htip : tip < 2 ^ 64) :
    sellerTip? ⟨some (matchCell d none pool index block).toLiveCell,
      extractTx (matchCell d none pool index block) c'.toCell tip, some c'⟩ = some tip := by
  simp only [sellerTip?, bySeller_extractTx, if_true]
  rw [extractTx, tip?_spend, headerAt_number htip]

/-- A match of rate 3 committed in block 1000 with a pool of 100000. -/
def fresh : MatchCell := matchCell ⟨0, 3, 0⟩ none 100000 0 1000

/-- The same match after the seller has shown block 10: the clock stands at 10. -/
def rewound : MatchCell := matchCell ⟨0, 3, 10⟩ none 100000 1 1040

/-- The rewound match after an extraction at block 1050. -/
def overdrawn : MatchCell := matchCell ⟨0, 3, 1050⟩ none 96880 2 1060

/-- The fresh match after an extraction at block 1050. -/
def extractedOnce : MatchCell := matchCell ⟨0, 3, 1050⟩ none 99850 1 1060

/-- The seller shows block 10, then block 1050. -/
def backdated : List (Move (Option LiveCell) Transaction) :=
  [⟨some fresh.toLiveCell, extractTx fresh rewound.toCell 10, some rewound.toLiveCell⟩,
    ⟨some rewound.toLiveCell, extractTx rewound overdrawn.toCell 1050,
      some overdrawn.toLiveCell⟩]

/-- The seller shows block 1050. -/
def honest : List (Move (Option LiveCell) Transaction) :=
  [⟨some fresh.toLiveCell, extractTx fresh extractedOnce.toCell 1050,
    some extractedOnce.toLiveCell⟩]

theorem run_honest :
    Run (Step codeHash) (some fresh.toLiveCell) honest (some extractedOnce.toLiveCell) := by
  refine .single (step_extract (by decide) (by decide) ?_ (by decide) rfl)
  rw [matchCell_rentAt (by decide)]
  decide

theorem run_backdated :
    Run (Step codeHash) (some fresh.toLiveCell) backdated (some overdrawn.toLiveCell) := by
  refine .cons (step_extract (by decide) (by decide) ?_ (by decide) rfl)
    (.single (step_extract (by decide) (by decide) ?_ (by decide) rfl))
  · rw [matchCell_rentAt (by decide)]
    decide
  · rw [matchCell_rentAt (by decide)]
    decide

/-- The seller collects the rent of 1040 blocks, of which 50 have passed. -/
theorem backdated_not_rentBounded :
    Run (Step codeHash) (some fresh.toLiveCell) backdated (some overdrawn.toLiveCell) ∧
      fresh.type_ = none ∧ fresh.matchData.lastExtractionBlock = 0 ∧
      ¬ RentBounded fresh.matchData.shannonsPerBlock.toNat fresh.block backdated := by
  refine ⟨run_backdated, rfl, rfl, ?_⟩
  have htaken : totalTaken backdated = 3120 := by
    rw [totalTaken, backdated, List.map_cons, List.map_singleton, List.sum_cons,
      List.sum_singleton, fresh, rewound, overdrawn, taken_extractTx (by decide) (by decide),
      taken_extractTx (by decide) (by decide)]
  have hfirst : sellerTip? ⟨some fresh.toLiveCell, extractTx fresh rewound.toCell 10,
      some rewound.toLiveCell⟩ = some 10 := sellerTip?_extractTx (by decide)
  have hsecond : sellerTip? ⟨some rewound.toLiveCell, extractTx rewound overdrawn.toCell 1050,
      some overdrawn.toLiveCell⟩ = some 1050 := sellerTip?_extractTx (by decide)
  have htip : latestTip backdated = 1050 := by
    rw [latestTip, backdated, List.filterMap_cons_some hfirst, List.filterMap_cons_some hsecond]
    rfl
  have hblock : fresh.block = 1000 := matchCell_block (by decide)
  rw [RentBounded, htaken, htip, hblock]
  decide

/-- `extractedOnce` after the buyer has put in another 100000 shannons. -/
def refilled : MatchCell := matchCell ⟨0, 3, 1050⟩ none 199850 2 1070

/-- The seller extracts at block 1050, and the buyer tops the match up. -/
def extractAndTopUp : List (Move (Option LiveCell) Transaction) :=
  [⟨some fresh.toLiveCell, extractTx fresh extractedOnce.toCell 1050,
      some extractedOnce.toLiveCell⟩,
    ⟨some extractedOnce.toLiveCell, updateTx extractedOnce refilled.toCell,
      some refilled.toLiveCell⟩]

theorem run_extractAndTopUp :
    Run (Step codeHash) (some fresh.toLiveCell) extractAndTopUp (some refilled.toLiveCell) :=
  run_honest.append (.single (buyerStep_update (by decide) (by decide)).1)

/-- The refilled match after another extraction, at block 1150. -/
def extractedTwice : MatchCell := matchCell ⟨0, 3, 1150⟩ none 199550 3 1160

/-- The seller extracts, the buyer tops up, and the seller extracts again. -/
def extractTwice : List (Move (Option LiveCell) Transaction) :=
  extractAndTopUp ++ [⟨some refilled.toLiveCell, extractTx refilled extractedTwice.toCell 1150,
    some extractedTwice.toLiveCell⟩]

theorem run_extractTwice :
    Run (Step codeHash) (some fresh.toLiveCell) extractTwice (some extractedTwice.toLiveCell) := by
  refine run_extractAndTopUp.append
    (.single (step_extract (by decide) (by decide) ?_ (by decide) rfl))
  rw [matchCell_rentAt (by decide)]
  decide

/-- An extraction at the base or later keeps the clock. -/
theorem clockKept_extractTx {d : MatchData} {pool index block tip : ℕ} {o : Cell}
    {s : Option LiveCell} (htip : tip < 2 ^ 64)
    (hbase : rentBase (matchCell d none pool index block).toLiveCell d ≤ tip) :
    ClockKept ⟨some (matchCell d none pool index block).toLiveCell,
      extractTx (matchCell d none pool index block) o tip, s⟩ := by
  rintro c c' a d' t hc - hd - ht
  obtain rfl := Option.some.inj hc
  obtain ⟨-, rfl⟩ := hd.unique isMatch_matchOutput
  rw [extractTx, tip?_spend, headerAt_number htip] at ht
  obtain rfl := Option.some.inj ht
  exact .inr hbase

/-- So does whatever the buyer does. -/
theorem clockKept_of_byBuyer {c : LiveCell} {tx : Transaction} {s : Option LiveCell}
    (h : byBuyer tx c.toCell = true) : ClockKept ⟨some c, tx, s⟩ := by
  rintro c' c'' a d tip hc - hd hseller -
  obtain rfl := Option.some.inj hc
  rw [bySeller_of_unsigned hd ((byBuyer_iff hd).mp h).1] at hseller
  cases hseller

/-- With a top-up in between, the seller collects the rent of 150 blocks and no more. -/
theorem extractTwice_rentBounded :
    RentBounded fresh.matchData.shannonsPerBlock.toNat fresh.block extractTwice := by
  have hfresh : rentBase fresh.toLiveCell ⟨0, 3, 0⟩ = 1000 := matchCell_block (by decide)
  have hupdate : byBuyer (updateTx extractedOnce refilled.toCell) extractedOnce.toCell = true :=
    (buyerStep_update (by decide) (by decide)).2
  refine rentBounded_of_clockKept rfl rfl run_extractTwice ?_
  simp only [extractTwice, extractAndTopUp, List.cons_append, List.nil_append,
    List.forall_mem_cons]
  refine ⟨clockKept_extractTx (by decide) ?_, clockKept_of_byBuyer hupdate,
    clockKept_extractTx (by decide) (by decide), List.forall_mem_nil _⟩
  exact hfresh.trans_le (by decide)

end Market

end Opticrum
