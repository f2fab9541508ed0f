import Opticrum.Foundation.Account
import Opticrum.Results.RentBound

/-!
# The ledger of an escrow

A CKB-only match is a metered account: the pool is its balance, the rent base is its
clock, and the rate is the one the order named.  An extraction is a charge, a buyer
update an adjustment, and a destruction a sweep.  `posts_of_step` answers every step
of the lifecycle by what happens to the account, with no condition on the headers the
seller shows, and the laws of the account become laws of the contract:

* `ledger_balances` — the exact account of a run, whoever acts in whatever order;
* `block_charged_once` — while no extraction sets the clock back, no block is paid
  for twice;
* `tenure_paid` — a match is destroyed only once its pool, with what was put into it, is
  paid for in blocks.

Two entries of the ledger are what the terms do not foresee.  A block is *rewound* when
the seller shows a header before the rent base, and *forfeited* when the base of a match
that was never extracted moves along with the cell.

## How it is proved

`Keeps` relates a match to an account with its pool and its rent base, and `Posts` says that a
move of the one and an event of the other have the same entries: what is taken and paid in, what
is rewound and forfeited, and the blocks that are paid for.

There are three cases.  A sweep is a sweep.  An update is a skip of as many blocks as the base
moves on by, with what the buyer puts in or takes out.  An extraction is a charge where it shows
a block after the base; where it does not, it takes nothing, and is a rewind or a skip to the
new base.  `Run.simulate` then carries every law of `Account` over, since all of them are about
sums and lists of such entries.
-/

namespace Opticrum

open Rust Ckb TransitionSystem

section Ledger

variable [ScriptHash]

/-! ## The entries -/

/-- The block the rent of a live cell accrues from, `0` when it is no Match. -/
def baseOf (c : LiveCell) : ℕ :=
  match branchOf c.toCell with
  | .ok (.matchCell _ d) => rentBase c d
  | _ => 0

/-- The pool of an escrow, nothing once it is closed. -/
def poolOf : Option LiveCell → ℕ
  | some c => c.unoccupied
  | none => 0

/-- The cell is a Match that stores no extraction. -/
def neverExtracted (c : LiveCell) : Bool :=
  match branchOf c.toCell with
  | .ok (.matchCell _ d) => d.lastExtractionBlock = 0
  | _ => false

/-- What a move puts into the pool: what the buyer changes it by, negative when he
withdraws, and what the seller adds to it. -/
def paidIn (m : Move (Option LiveCell) Transaction) : ℤ :=
  match m.source, m.target with
  | some c, some c' =>
      if bySeller m.label c.toCell then (c'.unoccupied - c.unoccupied : ℕ)
      else (c'.unoccupied : ℤ) - c.unoccupied
  | _, _ => 0

/-- The blocks a move sets the rent base back by.  Only the seller can do this, by showing a
header from before the base. -/
def rewoundBlocks (m : Move (Option LiveCell) Transaction) : ℕ :=
  match m.source, m.target with
  | some c, some c' => baseOf c - baseOf c'
  | _, _ => 0

/-- The blocks the rent base of a match that stores no extraction moves ahead by.  Nobody is
paid for them: the base has gone along with the cell. -/
def forfeitedBlocks (m : Move (Option LiveCell) Transaction) : ℕ :=
  match m.source, m.target with
  | some c, some c' => if neverExtracted c' then baseOf c' - baseOf c else 0
  | _, _ => 0

/-- The blocks a move of the seller is paid for: after the first of the pair, up to the
second. -/
def paidBlocks? (m : Move (Option LiveCell) Transaction) : Option (ℕ × ℕ) :=
  match m.source, sellerTip? m with
  | some c, some tip => if baseOf c < tip then some (baseOf c, tip) else none
  | _, _ => none

/-- How many blocks a move of the seller is paid for. -/
def paidFor (m : Move (Option LiveCell) Transaction) : ℕ :=
  (paidBlocks? m).elim 0 fun span => span.2 - span.1

/-- A move of the seller is paid for block `n`.  These are the blocks after the rent base it
finds, up to the tip it shows. -/
def paysFor (n : ℕ) (m : Move (Option LiveCell) Transaction) : Bool :=
  (paidBlocks? m).any fun span => span.1 < n ∧ n ≤ span.2

/-- The latest block the seller is paid for in a run, `0` when there is none. -/
def latestPaid (moves : List (Move (Option LiveCell) Transaction)) : ℕ :=
  ((moves.filterMap paidBlocks?).map Prod.snd).foldr max 0

def totalPaidIn (moves : List (Move (Option LiveCell) Transaction)) : ℤ := (moves.map paidIn).sum

def totalRewound (moves : List (Move (Option LiveCell) Transaction)) : ℕ :=
  (moves.map rewoundBlocks).sum

def totalForfeited (moves : List (Move (Option LiveCell) Transaction)) : ℕ :=
  (moves.map forfeitedBlocks).sum

omit [ScriptHash] in
theorem IsMatch.baseOf_eq {c : LiveCell} {a : MatchArgs} {d : MatchData}
    (h : IsMatch c.toCell a d) : baseOf c = rentBase c d := by
  rw [baseOf, show branchOf c.toCell = _ from h]

omit [ScriptHash] in
theorem IsMatch.neverExtracted_iff {c : LiveCell} {a : MatchArgs} {d : MatchData}
    (h : IsMatch c.toCell a d) : neverExtracted c = true ↔ d.lastExtractionBlock = 0 := by
  rw [neverExtracted, show branchOf c.toCell = _ from h, decide_eq_true_eq]

/-! ## The account -/

/-- The account of an escrow: its pool and its rent base. -/
def Keeps (rate : ℕ) : Option LiveCell → Option Account.State → Prop
  | none, account => account = none
  | some c, account => c.type_ = none ∧ ∃ a d, IsMatch c.toCell a d ∧
      d.shannonsPerBlock.toNat = rate ∧ account = some ⟨c.unoccupied, rentBase c d⟩

/-- A move of the escrow and one of its account have the same entries.  The laws of the ledger
are those of the account, carried over along this. -/
structure Posts (rate : ℕ) (m : Move (Option LiveCell) Transaction)
    (am : Move (Option Account.State) Account.Event) : Prop where
  taken : taken m = Account.taken rate am
  paidIn : paidIn m = Account.deposited am
  rewound : rewoundBlocks m = Account.rewound am
  forfeited : forfeitedBlocks m = Account.skipped am
  paidBlocks? : paidBlocks? m = Account.span? am

variable {codeHash : Byte32} {rate : ℕ} {c c' : LiveCell} {a : MatchArgs} {d d' : MatchData}
  {tx : Transaction}

omit [ScriptHash] in
/-- The account of a CKB-only match. -/
theorem keeps_of_isMatch (htype : c.type_ = none) (hc : IsMatch c.toCell a d)
    (hrate : d.shannonsPerBlock.toNat = rate) :
    Keeps rate (some c) (some ⟨c.unoccupied, rentBase c d⟩) :=
  ⟨htype, a, d, hc, hrate, rfl⟩

omit [ScriptHash] in
theorem rewoundBlocks_eq (hc : IsMatch c.toCell a d) (hc' : IsMatch c'.toCell a d') :
    rewoundBlocks ⟨some c, tx, some c'⟩ = rentBase c d - rentBase c' d' := by
  simp only [rewoundBlocks, hc.baseOf_eq, hc'.baseOf_eq]

/-- The blocks an extraction is paid for. -/
theorem paidBlocks?_of_due {tip : ℕ} (hc : IsMatch c.toCell a d)
    (hseller : bySeller tx c.toCell = true) (due : RentDue tx c d tip) :
    paidBlocks? ⟨some c, tx, some c'⟩ =
      if rentBase c d < tip then some (rentBase c d, tip) else none := by
  have htip : sellerTip? ⟨some c, tx, some c'⟩ = some tip := by
    simp only [sellerTip?, hseller, if_true]
    exact due.isTip
  simp only [paidBlocks?, htip, hc.baseOf_eq]

omit [ScriptHash] in
/-- A stored tip is the rent base, unless it is block 0, which reads as none. -/
theorem rentBase_eq_of_clock {tip : ℕ} (clock : d'.lastExtractionBlock.toNat = tip)
    (hpos : 0 < tip) : d'.lastExtractionBlock ≠ 0 ∧ rentBase c' d' = tip := by
  have hstored : d'.lastExtractionBlock ≠ 0 := by
    intro hzero
    rw [← clock, hzero] at hpos
    exact absurd hpos (by decide)
  exact ⟨hstored, by rw [rentBase, if_neg hstored, clock]⟩

/-- An extraction charges the account, sets its clock back, or lets it skip ahead.  Only
where there is no rent may it leave more than it found. -/
theorem posts_extract {tip : ℕ} (hc : IsMatch c.toCell a d) (htype : c.type_ = none)
    (hc' : IsMatch c'.toCell a d') (hseller : bySeller tx c.toCell = true)
    (due : RentDue tx c d tip) (exact : extracted c.toCell c'.toCell d' = rentAt c d tip)
    (clock : d'.lastExtractionBlock.toNat = tip) :
    ∃ e, Account.Step d.shannonsPerBlock.toNat (some ⟨c.unoccupied, rentBase c d⟩) e
        (some ⟨c'.unoccupied, rentBase c' d'⟩) ∧
      Posts d.shannonsPerBlock.toNat ⟨some c, tx, some c'⟩
        ⟨some ⟨c.unoccupied, rentBase c d⟩, e, some ⟨c'.unoccupied, rentBase c' d'⟩⟩ := by
  rw [extracted_of_type_none hc htype] at exact
  have htaken : taken ⟨some c, tx, some c'⟩ = rentAt c d tip := by
    simp only [taken, hseller, if_true]
    exact exact
  -- without rent the saturating difference allows a gift
  obtain ⟨added, hadded⟩ : ∃ added, added = c'.unoccupied - c.unoccupied := ⟨_, rfl⟩
  have hpaidIn : paidIn ⟨some c, tx, some c'⟩ = added := by
    simp only [paidIn, hseller, if_true, hadded]
  have hback : rewoundBlocks ⟨some c, tx, some c'⟩ = rentBase c d - rentBase c' d' :=
    rewoundBlocks_eq hc hc'
  have hblocks : paidBlocks? ⟨some c, tx, some c'⟩ = _ := paidBlocks?_of_due hc hseller due
  by_cases hlt : rentBase c d < tip
  · obtain ⟨hstored, hbase⟩ : _ ∧ rentBase c' d' = tip :=
      rentBase_eq_of_clock clock (Nat.zero_lt_of_lt hlt)
    have hforfeited : forfeitedBlocks ⟨some c, tx, some c'⟩ = 0 := by
      have hnever : neverExtracted c' = false := by
        rw [Bool.eq_false_iff, Ne, hc'.neverExtracted_iff]
        exact hstored
      simp [forfeitedBlocks, hnever]
    have hpool : (c'.unoccupied : ℤ) + rentAt c d tip = c.unoccupied + added := by omega
    rw [hbase] at hback ⊢
    refine ⟨.charge tip added, .charge hlt.le hpool, htaken, hpaidIn, ?_, hforfeited, hblocks⟩
    rw [hback, Nat.sub_eq_zero_of_le hlt.le]
    rfl
  · have hle : tip ≤ rentBase c d := Nat.le_of_not_lt hlt
    have hrent : rentAt c d tip = 0 := by rw [rentAt, Nat.sub_eq_zero_of_le hle, Nat.mul_zero]
    rw [if_neg hlt] at hblocks
    rcases Nat.le_total (rentBase c d) (rentBase c' d') with hahead | hbehind
    · obtain ⟨ahead, hsum⟩ := Nat.exists_eq_add_of_le hahead
      refine ⟨.skip ahead added, ?_, htaken.trans hrent, hpaidIn, ?_, ?_, hblocks⟩
      · rw [hsum]
        exact .skip (by omega)
      · rw [hback, Nat.sub_eq_zero_of_le hahead]
        rfl
      · simp only [forfeitedBlocks, Account.skipped, hc.baseOf_eq, hc'.baseOf_eq,
          hc'.neverExtracted_iff, hsum, Nat.add_sub_cancel_left]
        split
        · rfl
        · next hstored =>
          -- a stored tip is no later than the base, so nothing is skipped
          have hbase : rentBase c' d' = tip := by rw [rentBase, if_neg hstored, clock]
          omega
    · refine ⟨.rewind (rentBase c' d') added, .rewind hbehind (by omega), htaken.trans hrent,
        hpaidIn, hback, ?_, hblocks⟩
      simp [forfeitedBlocks, hc.baseOf_eq, hc'.baseOf_eq, Nat.sub_eq_zero_of_le hbehind,
        Account.skipped]

/-- A buyer update adjusts the balance; where no extraction is stored, the clock goes
ahead with the cell. -/
theorem posts_update (hc : IsMatch c.toCell a d) (hc' : IsMatch c'.toCell a d')
    (hbuyer : byBuyer tx c.toCell = true)
    (clock : d'.lastExtractionBlock = d.lastExtractionBlock) (hlater : c.block ≤ c'.block) :
    ∃ e, Account.Step d.shannonsPerBlock.toNat (some ⟨c.unoccupied, rentBase c d⟩) e
        (some ⟨c'.unoccupied, rentBase c' d'⟩) ∧
      Posts d.shannonsPerBlock.toNat ⟨some c, tx, some c'⟩
        ⟨some ⟨c.unoccupied, rentBase c d⟩, e, some ⟨c'.unoccupied, rentBase c' d'⟩⟩ := by
  have hseller : bySeller tx c.toCell = false :=
    bySeller_of_unsigned hc ((byBuyer_iff hc).mp hbuyer).1
  have hle : rentBase c d ≤ rentBase c' d' := rentBase_le_of_clock_eq clock hlater
  obtain ⟨ahead, hahead⟩ := Nat.exists_eq_add_of_le hle
  refine ⟨.skip ahead (c'.unoccupied - c.unoccupied), ?_, ?_, ?_, ?_, ?_, ?_⟩
  · rw [hahead]
    exact .skip (by omega)
  · simp [taken, hseller, Account.taken]
  · simp [paidIn, hseller, Account.deposited]
  · rw [rewoundBlocks_eq hc hc', Nat.sub_eq_zero_of_le hle]
    rfl
  · simp only [forfeitedBlocks, Account.skipped, hc.baseOf_eq, hc'.baseOf_eq,
      hc'.neverExtracted_iff, hahead, Nat.add_sub_cancel_left]
    split
    · rfl
    · next hstored =>
      -- a stored clock stands still
      rw [clock] at hstored
      rw [rentBase, rentBase, clock, if_neg hstored, if_neg hstored] at hahead
      omega
  · simp [paidBlocks?, sellerTip?, hseller, Account.span?]

/-- **Posting.**  Every step of a CKB-only escrow is answered by its account. -/
theorem posts_of_step {s s' : Option LiveCell} {account : Option Account.State}
    (step : Step codeHash s tx s') (hs : Keeps rate s account) :
    ∃ e account', Account.Step rate account e account' ∧ Keeps rate s' account' ∧
      Posts rate ⟨s, tx, s'⟩ ⟨account, e, account'⟩ := by
  cases s with
  | none => exact absurd step not_step_none
  | some c =>
      obtain ⟨htype, a, d, hc, rfl, rfl⟩ := hs
      cases s' with
      | none =>
          cases step.transition with
          | orderCancel old => exact absurd old hc.not_isOrder
          | matchDestroy old signed due exhausted =>
              obtain ⟨rfl, rfl⟩ := hc.unique old
              rw [valueOf_of_type_none hc htype] at exhausted
              refine ⟨.sweep _, none, .sweep exhausted, rfl, rfl, rfl, rfl, rfl, ?_⟩
              simp only [paidBlocks?, sellerTip?, due.isTip, hc.baseOf_eq, Account.span?]
      | some c' =>
          cases step.transition with
          | orderMatch old => exact absurd old hc.not_isOrder
          | sellerExtract old new xudt hrate signed unsigned listed due alive exact clock =>
              obtain ⟨rfl, rfl⟩ := hc.unique old
              obtain ⟨e, hpost, hentries⟩ := posts_extract hc htype new
                ((bySeller_iff hc).mpr ⟨signed, unsigned⟩) due exact clock
              refine ⟨e, _, hpost, keeps_of_isMatch ?_ new (by rw [hrate]), hentries⟩
              exact (type_eq_of_xudtOf_eq hc new xudt).symm.trans htype
          | buyerUpdate old new xudt hrate unsigned signed clock =>
              obtain ⟨rfl, rfl⟩ := hc.unique old
              obtain ⟨e, hpost, hentries⟩ := posts_update hc new
                ((byBuyer_iff hc).mpr ⟨unsigned, signed⟩) clock step.later
              refine ⟨e, _, hpost, keeps_of_isMatch ?_ new (by rw [hrate]), hentries⟩
              exact (type_eq_of_xudtOf_eq hc new xudt).symm.trans htype

/-- A run is answered by a run of the account. -/
theorem exists_account {c : MatchCell} (htype : c.type_ = none) {s : Option LiveCell}
    {moves : List (Move (Option LiveCell) Transaction)}
    (run : Run (Step codeHash) (some c.toLiveCell) moves s) :
    ∃ amoves account,
      Run (Account.Step c.matchData.shannonsPerBlock.toNat)
        (some ⟨c.unoccupied, rentBase c.toLiveCell c.matchData⟩) amoves account ∧
      Keeps c.matchData.shannonsPerBlock.toNat s account ∧
      List.Forall₂ (Posts c.matchData.shannonsPerBlock.toNat) moves amoves :=
  run.simulate posts_of_step (keeps_of_isMatch htype c.decodes rfl)

/-- The moves paid for a block, counted by what they are paid for. -/
theorem countP_paysFor (n : ℕ) (moves : List (Move (Option LiveCell) Transaction)) :
    moves.countP (paysFor n) =
      (moves.filterMap paidBlocks?).countP fun span => span.1 < n ∧ n ≤ span.2 := by
  induction moves with
  | nil => rfl
  | cons m moves ih =>
      rw [List.countP_cons, ih, paysFor]
      cases hof : paidBlocks? m with
      | none => simp [List.filterMap_cons_none hof]
      | some span => rw [List.filterMap_cons_some hof, List.countP_cons, Option.any_some]

/-! ## The laws -/

/-- What was in the pool and was paid in is there or was taken. -/
theorem pool_add_taken {c : MatchCell} (htype : c.type_ = none) {s : Option LiveCell}
    {moves : List (Move (Option LiveCell) Transaction)}
    (run : Run (Step codeHash) (some c.toLiveCell) moves s) :
    (poolOf s : ℤ) + totalTaken moves = c.unoccupied + totalPaidIn moves := by
  obtain ⟨amoves, account, arun, hkeeps, hposts⟩ := exists_account htype run
  have hbalance := Account.balance_add_taken arun
  have hpool : poolOf s = Account.balanceOf account := by
    cases s with
    | none => rw [show account = none from hkeeps, poolOf, Account.balanceOf]
    | some c' =>
        obtain ⟨-, a, d, -, -, rfl⟩ := hkeeps
        rw [poolOf, Account.balanceOf]
  rw [totalTaken, totalPaidIn, hpool, map_eq_of_forall₂ hposts Posts.taken,
    map_eq_of_forall₂ hposts Posts.paidIn]
  exact hbalance

/-- What was taken is covered by the rent up to the latest block paid for, and of the
blocks the base was set back by. -/
theorem totalTaken_le_latest {c : MatchCell} (htype : c.type_ = none) {s : Option LiveCell}
    {moves : List (Move (Option LiveCell) Transaction)}
    (run : Run (Step codeHash) (some c.toLiveCell) moves s) :
    totalTaken moves ≤ c.matchData.shannonsPerBlock.toNat *
      (latestPaid moves - baseOf c.toLiveCell + totalRewound moves) := by
  obtain ⟨amoves, account, arun, -, hposts⟩ := exists_account htype run
  have hfee := Account.taken_le_latest arun rfl
  rw [Account.latest, ← map_eq_of_forall₂ hposts Posts.taken,
    ← map_eq_of_forall₂ hposts Posts.rewound,
    ← filterMap_eq_of_forall₂ hposts Posts.paidBlocks?] at hfee
  rwa [c.decodes.baseOf_eq]

/-- **The ledger.** In a run of a CKB-only match that leaves it open, whoever acts in whatever
order:

* the pool is what it was, with what the buyer put in and without what the seller took;
* the seller took the rent of the blocks the base moved through, less the forfeited ones and
  with the rewound ones once more.

Blocks are forfeited when the buyer updates a match that has never been extracted from: the base
moves with the block of the cell, and nobody is paid.  They are rewound when the seller shows a
header from before the base. -/
theorem ledger_balances {c : MatchCell} (htype : c.type_ = none)
    {moves : List (Move (Option LiveCell) Transaction)}
    (run : Run (Step codeHash) (some c.toLiveCell) moves (some c')) :
    (c'.unoccupied : ℤ) + totalTaken moves = c.unoccupied + totalPaidIn moves ∧
      totalTaken moves +
          c.matchData.shannonsPerBlock.toNat * (baseOf c.toLiveCell + totalForfeited moves) =
        c.matchData.shannonsPerBlock.toNat * (baseOf c' + totalRewound moves) := by
  refine ⟨pool_add_taken htype run, ?_⟩
  obtain ⟨amoves, account, arun, hkeeps, hposts⟩ := exists_account htype run
  obtain ⟨-, a, d, hc', -, rfl⟩ := hkeeps
  rw [totalTaken, totalForfeited, totalRewound, map_eq_of_forall₂ hposts Posts.taken,
    map_eq_of_forall₂ hposts Posts.forfeited, map_eq_of_forall₂ hposts Posts.rewound,
    hc'.baseOf_eq, c.decodes.baseOf_eq]
  exact Account.taken_add_skipped arun rfl rfl

/-- **Once.** In a run of a CKB-only match in which no move sets the rent base back, the seller
takes no more than the rent of the blocks he is paid for, and is paid for no block twice.

A move is paid for the blocks from the base it finds to the tip it shows.  Where the base never
goes back, these intervals do not meet. -/
theorem block_charged_once {c : MatchCell} (htype : c.type_ = none) {s : Option LiveCell}
    {moves : List (Move (Option LiveCell) Transaction)}
    (run : Run (Step codeHash) (some c.toLiveCell) moves s)
    (hkept : ∀ m ∈ moves, rewoundBlocks m = 0) :
    (∀ m ∈ moves, taken m ≤ c.matchData.shannonsPerBlock.toNat * paidFor m) ∧
      ∀ n, moves.countP (paysFor n) ≤ 1 := by
  obtain ⟨amoves, account, arun, -, hposts⟩ := exists_account htype run
  constructor
  · have hmoves : ∀ am ∈ amoves, Account.taken c.matchData.shannonsPerBlock.toNat am ≤
        c.matchData.shannonsPerBlock.toNat * Account.charged am :=
      arun.forall_moves Account.taken_le_charged
    refine forall_of_forall₂ hposts hmoves ?_
    intro m am hpost hle
    rw [hpost.taken, paidFor, hpost.paidBlocks?]
    exact hle
  · intro n
    have hclock : ∀ am ∈ amoves, Account.rewound am = 0 :=
      forall_of_forall₂ hposts.flip hkept fun hpost hm => hpost.rewound.symm.trans hm
    rw [countP_paysFor, filterMap_eq_of_forall₂ hposts Posts.paidBlocks?]
    exact Account.countP_covering_le_one (Account.pairwise_spans arun hclock) n

/-- **Tenure.** A CKB-only match that is destroyed was paid for: its pool, with what was put
into it, is covered by the rent from its base to the latest block the seller was paid for, and
of the blocks the base was set back by.

So the channel of a buyer who pays in advance stays open for as long as the funds last, as far
as the escrow has a say in it. -/
theorem tenure_paid {c : MatchCell} (htype : c.type_ = none)
    {moves : List (Move (Option LiveCell) Transaction)}
    (run : Run (Step codeHash) (some c.toLiveCell) moves none) :
    (c.unoccupied : ℤ) + totalPaidIn moves ≤
      (c.matchData.shannonsPerBlock.toNat *
        (latestPaid moves - baseOf c.toLiveCell + totalRewound moves) : ℕ) := by
  have hbalance := pool_add_taken htype run
  rw [poolOf, Nat.cast_zero, zero_add] at hbalance
  rw [← hbalance, Nat.cast_le]
  exact totalTaken_le_latest htype run

end Ledger

/-! ## In the market -/

namespace Market

theorem matchCell_baseOf {d : MatchData} {type_ : Option Script} {pool index block : ℕ}
    (h : block < 2 ^ 64) :
    baseOf (matchCell d type_ pool index block).toLiveCell =
      if d.lastExtractionBlock = 0 then block else d.lastExtractionBlock.toNat := by
  have hmatch : IsMatch (matchCell d type_ pool index block).toCell matchArgs d :=
    isMatch_matchOutput
  rw [hmatch.baseOf_eq, rentBase, matchCell_block h]

/-- The seller takes over what is left of `c` at the block `tip`. -/
def destroyTx (c : MatchCell) (tip : ℕ) : Transaction :=
  spend c.toLiveCell sellerCell [sellerCell.toCell] [] [headerAt tip, c.header]

/-- A CKB-only match of the market is destroyed in one step, once its rent reaches its
pool. -/
theorem step_destroy {c : MatchCell} {tip : ℕ}
    (hlock : c.lock = opticrumLock codeHash matchArgs.toBytes.toList) (htype : c.type_ = none)
    (hargs : c.args = matchArgs) (hocc : c.occupied < 2 ^ 64) (htip : tip < 2 ^ 64)
    (hrent : rentAt c.toLiveCell c.matchData tip < 2 ^ 64)
    (hexhausted : c.unoccupied ≤ rentAt c.toLiveCell c.matchData tip) :
    Step codeHash (some c.toLiveCell) (destroyTx c tip) none := by
  have hsigned : Signed (destroyTx c tip) c.args.sellerLockHash := by
    rw [hargs]
    exact (signed_spend_sellerCell hlock).1
  have hdue : RentDue (destroyTx c tip) c.toLiveCell c.matchData tip := by
    refine ⟨?_, fun _ => hasHeader_spend (by simp), hrent⟩
    rw [destroyTx, tip?_spend, headerAt_number htip]
  have hopticrum : isOpticrumLock codeHash c.lock = true := by
    rw [hlock]
    exact isOpticrumLock_opticrumLock _ _
  refine step_spend_close hopticrum (by decide) ?_ hocc ?_
  · intro o ho
    obtain rfl := List.mem_singleton.mp ho
    decide
  · refine .matchDestroy c.decodes hsigned hdue ?_
    rwa [valueOf_of_type_none c.decodes htype]

theorem extractAndTopUp_balances :
    (refilled.unoccupied : ℤ) + totalTaken extractAndTopUp =
        fresh.unoccupied + totalPaidIn extractAndTopUp ∧
      totalTaken extractAndTopUp +
          fresh.matchData.shannonsPerBlock.toNat *
            (baseOf fresh.toLiveCell + totalForfeited extractAndTopUp) =
        fresh.matchData.shannonsPerBlock.toNat *
          (baseOf refilled.toLiveCell + totalRewound extractAndTopUp) :=
  ledger_balances rfl run_extractAndTopUp

/-- The seller extracts at block 1050, and sweeps the rest at block 34334. -/
def extractAndDestroy : List (Move (Option LiveCell) Transaction) :=
  [⟨some fresh.toLiveCell, extractTx fresh extractedOnce.toCell 1050,
      some extractedOnce.toLiveCell⟩,
    ⟨some extractedOnce.toLiveCell, destroyTx extractedOnce 34334, none⟩]

theorem run_extractAndDestroy :
    Run (Step codeHash) (some fresh.toLiveCell) extractAndDestroy none := by
  have hrent : rentAt extractedOnce.toLiveCell extractedOnce.matchData 34334 = 99852 :=
    matchCell_rentAt (by decide) 34334
  have hpool : extractedOnce.unoccupied = 99850 := matchCell_unoccupied (by decide)
  refine run_honest.append (.single (step_destroy rfl rfl rfl matchCell_fits (by decide) ?_ ?_))
  · rw [hrent]
    decide
  · rw [hrent, hpool]
    decide

/-- The base moves from block 1000 to block 1050. -/
theorem extractAndDestroy_kept : ∀ m ∈ extractAndDestroy, rewoundBlocks m = 0 := by
  have hfresh : baseOf fresh.toLiveCell = 1000 := matchCell_baseOf (by decide)
  have hextracted : baseOf extractedOnce.toLiveCell = 1050 := matchCell_baseOf (by decide)
  refine List.forall_mem_cons.mpr ⟨?_, List.forall_mem_singleton.mpr rfl⟩
  simp only [rewoundBlocks, hfresh, hextracted]

theorem extractAndDestroy_charged_once :
    (∀ m ∈ extractAndDestroy,
        taken m ≤ fresh.matchData.shannonsPerBlock.toNat * paidFor m) ∧
      ∀ n, extractAndDestroy.countP (paysFor n) ≤ 1 :=
  block_charged_once rfl run_extractAndDestroy extractAndDestroy_kept

theorem extractAndDestroy_paid :
    (fresh.unoccupied : ℤ) + totalPaidIn extractAndDestroy ≤
      (fresh.matchData.shannonsPerBlock.toNat *
        (latestPaid extractAndDestroy - baseOf fresh.toLiveCell +
          totalRewound extractAndDestroy) : ℕ) :=
  tenure_paid rfl run_extractAndDestroy

end Market

end Opticrum
