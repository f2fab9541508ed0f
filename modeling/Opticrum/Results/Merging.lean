import Opticrum.Results.Authorization
import Opticrum.Results.Interleaving

/-!
# Any number of escrows in a transaction

The runs of a single escrow suppose that a transaction consumes no other Opticrum cell.
On a chain nobody has to keep to that: the groups of a transaction all look at its first
Opticrum output, and a group looks at its first cell only.  What is left of the laws of an
escrow then?

* `parties_kept` — its parties.  Followed through any history along the first Opticrum
  outputs, an escrow keeps the node and the buyer of its order, and from the match on its
  channel and its seller; it is moved by their signatures only.  Not kept are the rate, the
  tokens and the pool.
* `merged_groups` — and there is little room for mixing.  A transaction with an Opticrum
  output spends one group, or the orders and the matches of one order; the latter takes
  the seller, and the genesis block as the tip.
* `escrows_never_merge` — so two escrows go on in one cell only where a transaction spends
  two cells of one group, or shows the genesis block as the tip.  Whoever watches the chain
  for these two needs to watch for nothing else.

## How it is proved

All groups are checked against one output.  From two transitions into the same output,
`merges_of_transitions` reads off what the two groups have to share: an order asks for a match
that carries its args, a match for its own args.  Two matches then have one lock and are one
group, and so do two orders.  For an order beside a match the data decide: the order wants a
match that was never extracted from, and an extraction stores its tip, so the tip is zero.  An
update by the buyer would have to go without the seller, whom the order asks for.

For the histories, `AcceptedBy.separates` says when a transaction cannot merge, and the run
lemma of `Opticrum.Results.Interleaving` is used with that.
-/

namespace Opticrum

open Rust Ckb TransitionSystem

/-! ## The parties -/

/-- `c'` is under the args of `c`, or under those of a match of the order `c`.  Both are said of
the bytes of the args, which is all that the locks of two cells share. -/
structure KeepsParties (c c' : Cell) : Prop where
  ofMatch : ∀ a : MatchArgs, c.lock.args = a.toBytes.toList → c'.lock.args = a.toBytes.toList
  ofOrder : ∀ a : OrderArgs, c.lock.args = a.toBytes.toList →
    c'.lock.args = a.toBytes.toList ∨
      ∃ ma : MatchArgs, ma.orderArgs = a ∧ c'.lock.args = ma.toBytes.toList

/-- A cell keeps its own parties. -/
theorem KeepsParties.refl (c : Cell) : KeepsParties c c := ⟨fun _ => id, fun _ => .inl⟩

/-- Parties that are kept twice are kept.  From an order the channel and the seller are chosen
once, with the first match. -/
theorem KeepsParties.trans {c c' c'' : Cell} (h : KeepsParties c c') (h' : KeepsParties c' c'') :
    KeepsParties c c'' where
  ofMatch a ha := h'.ofMatch a (h.ofMatch a ha)
  ofOrder a ha := by
    rcases h.ofOrder a ha with horder | ⟨ma, hma, hmatch⟩
    · exact h'.ofOrder a horder
    · exact .inr ⟨ma, hma, h'.ofMatch ma hmatch⟩

section Parties

variable [ScriptHash] {codeHash : Byte32} {tx : Transaction}

/-- The args of a spent cell are those of an Order or of a Match, and its parties have
signed. -/
def SpentByParty (codeHash : Byte32) (tx : Transaction) (c : Cell) : Prop :=
  (∃ a : OrderArgs, c.lock.args = a.toBytes.toList ∧ OrderAuthorized codeHash tx a) ∨
    ∃ a : MatchArgs, c.lock.args = a.toBytes.toList ∧ MatchAuthorized codeHash tx a

/-- What a spent escrow goes on in keeps its parties. -/
theorem SpentByParty.keeps {c o : Cell} (h : SpentByParty codeHash tx c)
    (hout : opticrumOutput? codeHash tx = some o) : KeepsParties c o := by
  rcases h with ⟨a, hargs, hauthorized⟩ | ⟨a, hargs, hauthorized⟩
  · simp only [OrderAuthorized, hout] at hauthorized
    obtain ⟨ma, md, hmatch, horder, -⟩ := hauthorized
    refine ⟨fun a' ha' => absurd (hargs.symm.trans ha') (orderArgs_ne_matchArgs a a'), ?_⟩
    intro a' ha'
    obtain rfl := OrderArgs.toBytes_injective (hargs.symm.trans ha')
    exact .inr ⟨ma, horder, hmatch.args_eq⟩
  · simp only [MatchAuthorized, hout] at hauthorized
    obtain ⟨⟨md, hmatch⟩, -⟩ := hauthorized
    refine ⟨?_, fun a' ha' => absurd (ha'.symm.trans hargs) (orderArgs_ne_matchArgs a' a)⟩
    intro a' ha'
    obtain rfl := MatchArgs.toBytes_injective (hargs.symm.trans ha')
    exact hmatch.args_eq

variable {chain chain' : Chain} {m : Committed} {c c' : LiveCell}

omit [ScriptHash] in
/-- An escrow stays under the contract's lock: it goes on in an Opticrum output. -/
theorem lock_of_follow (hlock : isOpticrumLock codeHash c.lock = true)
    (hfollow : follow codeHash c m = some c') : isOpticrumLock codeHash c'.lock = true := by
  by_cases hin : c ∈ m.tx.inputs
  · exact (created_of_follow hin hfollow).2
  · rw [follow_of_not_mem hin] at hfollow
    obtain rfl := Option.some.inj hfollow
    exact hlock

/-- In a committed transaction every escrow is spent by its party. -/
theorem Commits.spentByParty (h : Commits codeHash chain m chain')
    (hlock : isOpticrumLock codeHash c.lock = true) (hin : c ∈ m.tx.inputs) :
    SpentByParty codeHash m.tx c.toCell := by
  exact h.accepted.authorized (mem_opticrumInputs.mpr ⟨hin, hlock⟩)

/-- A committed transaction keeps the parties of every escrow. -/
theorem Commits.keeps (h : Commits codeHash chain m chain')
    (hlock : isOpticrumLock codeHash c.lock = true) (hfollow : follow codeHash c m = some c') :
    KeepsParties c.toCell c'.toCell := by
  by_cases hin : c ∈ m.tx.inputs
  · have hout : (follow codeHash c m).map LiveCell.toCell = opticrumOutput? codeHash m.tx :=
      map_follow hin
    rw [hfollow] at hout
    exact (h.spentByParty hlock hin).keeps hout.symm
  · rw [follow_of_not_mem hin] at hfollow
    obtain rfl := Option.some.inj hfollow
    exact .refl _

/-- Every cell an escrow goes through is under its parties, and is spent by them.  The induction
carries along that what has been reached keeps the parties of the start. -/
theorem spent_escrowMoves {moves : List (Move Chain Committed)}
    (run : Run (Commits codeHash) chain moves chain')
    (hlock : isOpticrumLock codeHash c.lock = true) :
    ∀ m ∈ escrowMoves codeHash (some c) (moves.map Move.label), ∃ k : LiveCell,
      m.source = some k ∧ KeepsParties c.toCell k.toCell ∧
        SpentByParty codeHash m.label k.toCell := by
  induction run generalizing c with
  | nil => exact List.forall_mem_nil _
  | @cons chain m next moves chain' h run ih =>
      simp only [List.map_cons, escrowMoves]
      split
      · next hin =>
        refine List.forall_mem_cons.mpr ⟨⟨c, rfl, .refl _, h.spentByParty hlock hin⟩, ?_⟩
        cases hfollow : follow codeHash c m with
        | none =>
            rw [escrowMoves_none]
            exact List.forall_mem_nil _
        | some c' =>
            intro m' hm'
            obtain ⟨k, hsource, hkept, hspent⟩ := ih (lock_of_follow hlock hfollow) m' hm'
            exact ⟨k, hsource, (h.keeps hlock hfollow).trans hkept, hspent⟩
      · exact ih hlock

/-- What is left of it is under its parties too. -/
theorem keeps_escrowAfter {moves : List (Move Chain Committed)}
    (run : Run (Commits codeHash) chain moves chain')
    (hlock : isOpticrumLock codeHash c.lock = true)
    (hc' : escrowAfter codeHash (some c) (moves.map Move.label) = some c') :
    KeepsParties c.toCell c'.toCell := by
  induction run generalizing c with
  | nil =>
      obtain rfl := Option.some.inj hc'
      exact .refl _
  | @cons chain m next moves chain' h run ih =>
      simp only [List.map_cons, escrowAfter] at hc'
      cases hfollow : follow codeHash c m with
      | none =>
          rw [hfollow, escrowAfter_none] at hc'
          cases hc'
      | some k =>
          rw [hfollow] at hc'
          exact (h.keeps hlock hfollow).trans (ih (lock_of_follow hlock hfollow) hc')

/-- **The parties are kept.** In every history, whatever its transactions consume, every move of
an escrow spends a cell that kept its parties and is signed by them, and what is left of it at
the end is live and has kept them.

Here an escrow may be consumed with others, of its group or not.  What it goes on in is then the
replacement of all of them, and still one under its own parties. -/
theorem parties_kept {moves : List (Move Chain Committed)}
    (run : Run (Commits codeHash) chain moves chain') (hc : c ∈ chain.live)
    (hlock : isOpticrumLock codeHash c.lock = true) :
    (∀ m ∈ escrowMoves codeHash (some c) (moves.map Move.label), ∃ k : LiveCell,
        m.source = some k ∧ KeepsParties c.toCell k.toCell ∧
          SpentByParty codeHash m.label k.toCell) ∧
      ∀ c', escrowAfter codeHash (some c) (moves.map Move.label) = some c' →
        c' ∈ chain'.live ∧ KeepsParties c.toCell c'.toCell :=
  ⟨spent_escrowMoves run hlock, fun _ hc' =>
    ⟨(live_of_escrowAfter run hc hlock hc').1, keeps_escrowAfter run hlock hc'⟩⟩

end Parties

/-! ## Several groups -/

section Groups

variable [ScriptHash] {codeHash : Byte32} {tx : Transaction} {c k : LiveCell} {o : Cell}

/-- The order `c` and the match `k` of it go on in `o`: the seller signs and shows the
genesis block as the tip, so that the match owes no rent, and of the two pools one is left. -/
structure Merges (tx : Transaction) (c k : LiveCell) (o : Cell) (ma : MatchArgs) (d : OrderData)
    (dk md : MatchData) : Prop where
  order : IsOrder c.toCell ma.orderArgs d
  matched : IsMatch k.toCell ma dk
  output : IsMatch o ma md
  genesis : tip? tx = some 0
  clock : md.lastExtractionBlock = 0
  signed : Signed tx ma.sellerLockHash
  unsigned : ¬ Signed tx ma.orderArgs.buyerLockHash
  rate : d.shannonsPerBlock = dk.shannonsPerBlock
  xudt : xudtOf c.toCell = xudtOf k.toCell
  pool : c.unoccupied = o.unoccupied
  freed : k.type_ = none → k.unoccupied ≤ o.unoccupied

/-- A transition to a match is from an order of it or from a match with the same args. -/
theorem Transition.args_eq (h : Transition tx c (some o)) {ma : MatchArgs} {md : MatchData}
    (ho : IsMatch o ma md) :
    c.lock.args = ma.orderArgs.toBytes.toList ∨ c.lock.args = ma.toBytes.toList := by
  cases h with
  | orderMatch old new args =>
      obtain ⟨rfl, -⟩ := new.unique ho
      exact .inl (args ▸ old.args_eq)
  | sellerExtract old new =>
      obtain ⟨rfl, -⟩ := new.unique ho
      exact .inr old.args_eq
  | buyerUpdate old new =>
      obtain ⟨rfl, -⟩ := new.unique ho
      exact .inr old.args_eq

/-- Two transitions to one output, from an order and from a match. -/
theorem merges_of_transitions (hc : Transition tx c (some o)) (hk : Transition tx k (some o))
    {ma : MatchArgs} {md : MatchData} (ho : IsMatch o ma md)
    (horder : c.lock.args = ma.orderArgs.toBytes.toList)
    (hmatch : k.lock.args = ma.toBytes.toList) : ∃ d dk, Merges tx c k o ma d dk md := by
  cases hc with
  | sellerExtract old =>
      exact absurd (horder.symm.trans old.args_eq) (orderArgs_ne_matchArgs _ _)
  | buyerUpdate old =>
      exact absurd (horder.symm.trans old.args_eq) (orderArgs_ne_matchArgs _ _)
  | @orderMatch a d _ _ _ _ _ old new args xudt listed inspected meets signed rate clock pool =>
      obtain ⟨rfl, rfl⟩ := new.unique ho
      cases hk with
      | orderMatch old' =>
          exact absurd (old'.args_eq.symm.trans hmatch) (orderArgs_ne_matchArgs _ _)
      | buyerUpdate old' new' xudt' rate' unsigned' =>
          -- the order takes the seller's signature, which an update excludes
          obtain ⟨rfl, -⟩ := new'.unique new
          exact absurd signed unsigned'
      | @sellerExtract _ dk _ _ tip old' new' xudt' rate' signed' unsigned' listed' due alive exact
          clock' =>
          obtain ⟨rfl, rfl⟩ := new'.unique new
          obtain rfl : tip = 0 := by rw [← clock', clock]; rfl
          have hfree : rentAt k dk 0 = 0 := by
            rw [rentAt, Nat.zero_sub, Nat.mul_zero]
          refine ⟨d, dk, ?_⟩
          refine ⟨args ▸ old, old', new, due.isTip, clock, signed, unsigned', rate.trans rate'.symm,
            xudt.trans xudt'.symm, pool, fun htype => ?_⟩
          rw [extracted_of_type_none old' htype, hfree] at exact
          exact Nat.sub_eq_zero_iff_le.mp exact

/-- What replaces an escrow is a match. -/
theorem Transition.exists_isMatch (h : Transition tx c (some o)) : ∃ ma md, IsMatch o ma md := by
  cases h with
  | orderMatch _ new => exact ⟨_, _, new⟩
  | sellerExtract _ new => exact ⟨_, _, new⟩
  | buyerUpdate _ new => exact ⟨_, _, new⟩

/-- The first cell of every group makes the transition of the transaction. -/
theorem AcceptedBy.exists_head (haccepted : AcceptedBy codeHash tx)
    (hout : opticrumOutput? codeHash tx = some o) {p : LiveCell}
    (hp : p ∈ opticrumInputs codeHash tx) :
    ∃ head : LiveCell, head.lock = p.lock ∧ (tx.groupInputs head.lock).head? = some head ∧
      Transition tx head (some o) := by
  obtain ⟨head, rest, hgroup, hlock, hhead⟩ := groupInputs_of_mem hp
  have htransition := haccepted.transition (mem_opticrumInputs.mp hhead).2 hgroup
  rw [hout] at htransition
  exact ⟨head, hlock, by rw [hgroup, List.head?_cons], htransition⟩

/-- The locks that an output lets in. -/
theorem AcceptedBy.lock_eq (haccepted : AcceptedBy codeHash tx)
    (hout : opticrumOutput? codeHash tx = some o) {ma : MatchArgs} {md : MatchData}
    (ho : IsMatch o ma md) {p : LiveCell} (hp : p ∈ opticrumInputs codeHash tx) :
    p.lock = opticrumLock codeHash ma.orderArgs.toBytes.toList ∨
      p.lock = opticrumLock codeHash ma.toBytes.toList := by
  obtain ⟨head, hlock, -, htransition⟩ := haccepted.exists_head hout hp
  have hargs := htransition.args_eq ho
  rw [hlock] at hargs
  rw [eq_opticrumLock (mem_opticrumInputs.mp hp).2]
  exact hargs.imp (fun h => by rw [h]) fun h => by rw [h]

/-- Where both locks occur, the heads merge. -/
theorem AcceptedBy.merges (haccepted : AcceptedBy codeHash tx)
    (hout : opticrumOutput? codeHash tx = some o) {ma : MatchArgs} {md : MatchData}
    (ho : IsMatch o ma md) (hc : c ∈ opticrumInputs codeHash tx)
    (hk : k ∈ opticrumInputs codeHash tx)
    (horder : c.lock = opticrumLock codeHash ma.orderArgs.toBytes.toList)
    (hmatch : k.lock = opticrumLock codeHash ma.toBytes.toList) :
    ∃ c k ma d dk md, (tx.groupInputs c.lock).head? = some c ∧
      (tx.groupInputs k.lock).head? = some k ∧ Merges tx c k o ma d dk md ∧
        ∀ p ∈ opticrumInputs codeHash tx, p.lock = c.lock ∨ p.lock = k.lock := by
  obtain ⟨c', hlock, hfirst, htransition⟩ := haccepted.exists_head hout hc
  obtain ⟨k', hlock', hfirst', htransition'⟩ := haccepted.exists_head hout hk
  rw [horder] at hlock
  rw [hmatch] at hlock'
  obtain ⟨d, dk, hmerges⟩ := merges_of_transitions htransition htransition' ho
    (congrArg Script.args hlock) (congrArg Script.args hlock')
  refine ⟨c', k', ma, d, dk, md, hfirst, hfirst', hmerges, fun p hp => ?_⟩
  rw [hlock, hlock']
  exact haccepted.lock_eq hout ho hp

/-- Spending two locks into one output merges the first cells of their groups. -/
theorem AcceptedBy.merges_of_ne (haccepted : AcceptedBy codeHash tx)
    (hout : opticrumOutput? codeHash tx = some o) (hc : c ∈ opticrumInputs codeHash tx)
    (hk : k ∈ opticrumInputs codeHash tx) (hne : c.lock ≠ k.lock) :
    ∃ c k ma d dk md, (tx.groupInputs c.lock).head? = some c ∧
      (tx.groupInputs k.lock).head? = some k ∧ Merges tx c k o ma d dk md ∧
        ∀ p ∈ opticrumInputs codeHash tx, p.lock = c.lock ∨ p.lock = k.lock := by
  obtain ⟨head, -, -, htransition⟩ := haccepted.exists_head hout hc
  obtain ⟨ma, md, ho⟩ := htransition.exists_isMatch
  rcases haccepted.lock_eq hout ho hc with horder | hmatch
  · rcases haccepted.lock_eq hout ho hk with horder' | hmatch
    · exact absurd (horder.trans horder'.symm) hne
    · exact haccepted.merges hout ho hc hk horder hmatch
  · rcases haccepted.lock_eq hout ho hk with horder | hmatch'
    · exact haccepted.merges hout ho hk hc horder hmatch
    · exact absurd (hmatch.trans hmatch'.symm) hne

/-- **Merging.** An accepted transaction with an Opticrum output spends the cells of one lock,
or those of an order and of a match of it; the first of each then merge.

The output is compared with the first cell of every group.  An order asks for a match that
carries its args, and a match for its own args, so that no third lock agrees with the output. -/
theorem merged_groups (haccepted : AcceptedBy codeHash tx)
    (hout : opticrumOutput? codeHash tx = some o) :
    (∀ c ∈ opticrumInputs codeHash tx, ∀ k ∈ opticrumInputs codeHash tx, c.lock = k.lock) ∨
      ∃ c k ma d dk md, (tx.groupInputs c.lock).head? = some c ∧
        (tx.groupInputs k.lock).head? = some k ∧ Merges tx c k o ma d dk md ∧
          ∀ p ∈ opticrumInputs codeHash tx, p.lock = c.lock ∨ p.lock = k.lock := by
  by_cases hshared :
      ∀ c ∈ opticrumInputs codeHash tx, ∀ k ∈ opticrumInputs codeHash tx, c.lock = k.lock
  · exact .inl hshared
  push Not at hshared
  obtain ⟨c, hc, k, hk, hne⟩ := hshared
  exact .inr (haccepted.merges_of_ne hout hc hk hne)

/-! ## Histories without merging -/

/-- No transaction of the history spends two Opticrum cells of one lock, and one that spends
several does not show the genesis block as the tip. -/
def OneOfEach (codeHash : Byte32) (moves : List (Move Chain Committed)) : Prop :=
  ∀ m ∈ moves,
    (opticrumInputs codeHash m.label.tx).Pairwise (fun c k => c.lock ≠ k.lock) ∧
      (tip? m.label.tx = some 0 → (opticrumInputs codeHash m.label.tx).length ≤ 1)

/-- Then the contract does not let two cells that are spent go on in one. -/
theorem AcceptedBy.separates {m : Committed} (haccepted : AcceptedBy codeHash m.tx)
    (hlocks : (opticrumInputs codeHash m.tx).Pairwise fun c k => c.lock ≠ k.lock)
    (hgenesis : tip? m.tx = some 0 → (opticrumInputs codeHash m.tx).length ≤ 1) :
    m.Separates codeHash := by
  intro c k hc hk hpoint
  have hne : c ≠ k := fun h => hpoint (congrArg LiveCell.outPoint h)
  have hsymm : Std.Symm fun c k : LiveCell => c.lock ≠ k.lock := ⟨fun _ _ => Ne.symm⟩
  have hlock : c.lock ≠ k.lock := hlocks.forall hc hk hne
  cases hout : opticrumOutput? codeHash m.tx with
  | none => rfl
  | some o =>
      obtain ⟨_, _, _, _, _, _, -, -, hmerges, -⟩ := haccepted.merges_of_ne hout hc hk hlock
      obtain ⟨p, hp⟩ := List.length_eq_one_iff.mp
        (Nat.le_antisymm (hgenesis hmerges.genesis) (List.length_pos_of_mem hc))
      rw [hp, List.mem_singleton] at hc hk
      exact absurd (hc.trans hk.symm) hne

/-- **Apart.**  In a history whose transactions spend no two cells of one lock, and show the
genesis block as the tip only where they spend one cell, two escrows never go on in one
cell, however many cells, groups and outputs the transactions have.  This is the contract's
doing: an order and a match of it are the only locks one output lets in, and they do not
agree on a later tip. -/
theorem escrows_never_merge {chain chain' : Chain} {moves : List (Move Chain Committed)}
    (run : Run (Commits codeHash) chain moves chain') (hone : OneOfEach codeHash moves)
    {c k c' k' : LiveCell} (hc : c ∈ chain.live) (hk : k ∈ chain.live)
    (hlock : isOpticrumLock codeHash c.lock = true) (hlock' : isOpticrumLock codeHash k.lock = true)
    (hne : c.outPoint ≠ k.outPoint)
    (hc' : escrowAfter codeHash (some c) (moves.map Move.label) = some c')
    (hk' : escrowAfter codeHash (some k) (moves.map Move.label) = some k') :
    c'.outPoint ≠ k'.outPoint := by
  have haccepted : ∀ m ∈ moves, AcceptedBy codeHash m.label.tx :=
    run.forall_moves fun h => h.accepted
  refine escrows_stay_apart run (fun m hm => ?_) hc hk hlock hlock' hne hc' hk'
  exact (haccepted m hm).separates (hone m hm).1 (hone m hm).2

end Groups

/-! ## In the market -/

namespace Market

/-- The seller merges an order and a match of 100000 shannons each into one match of as
much, showing the genesis block. -/
def mergeTx : Transaction where
  inputs := [(order 0).toLiveCell, fresh.toLiveCell, sellerCell]
  outputs := [matched]
  cellDeps := [.code channelCell]
  headerDeps := [headerAt 0, headerAt 500, headerAt 900, headerAt 1000]

/-- An order and a match of it are consumed. -/
theorem opticrumInputs_mergeTx :
    opticrumInputs codeHash mergeTx = [(order 0).toLiveCell, fresh.toLiveCell] := by
  have horder : isOpticrumLock codeHash (order 0).lock = true := isOpticrumLock_orderCell
  have hfresh : isOpticrumLock codeHash fresh.lock = true := isOpticrumLock_matchCell
  have hseller : isOpticrumLock codeHash sellerCell.lock = false := by decide
  simp [opticrumInputs, mergeTx, horder, hfresh, hseller]

/-- They have one replacement between them. -/
theorem opticrumOutput?_mergeTx : opticrumOutput? codeHash mergeTx = some matched := by
  have hmatched : isOpticrumLock codeHash matched.lock = true := isOpticrumLock_opticrumLock _ _
  simp [opticrumOutput?, mergeTx, hmatched]

/-- Their locks differ in the length of the args. -/
theorem lock_order_ne_lock_fresh : (order 0).lock ≠ fresh.lock := by
  intro h
  exact orderArgs_ne_matchArgs orderArgs matchArgs (congrArg Script.args h)

/-- So they are two groups of one cell each, for which the script runs separately. -/
theorem groupInputs_mergeTx :
    mergeTx.groupInputs (order 0).lock = [(order 0).toLiveCell] ∧
      mergeTx.groupInputs fresh.lock = [fresh.toLiveCell] := by
  have horder : isOpticrumLock codeHash (order 0).lock = true := isOpticrumLock_orderCell
  have hfresh : isOpticrumLock codeHash fresh.lock = true := isOpticrumLock_matchCell
  rw [groupInputs_eq_filter horder, groupInputs_eq_filter hfresh, opticrumInputs_mergeTx]
  simp [lock_order_ne_lock_fresh, lock_order_ne_lock_fresh.symm]

theorem signed_mergeTx : Signed mergeTx sellerLockHash ∧ ¬ Signed mergeTx buyerLockHash := by
  constructor
  · exact ⟨sellerCell, by simp [mergeTx], calcScriptHash_sellerLock⟩
  · rintro ⟨c, hc, hhash⟩
    simp only [mergeTx, List.mem_cons, List.not_mem_nil, or_false] at hc
    rcases hc with rfl | rfl | rfl
    · exact calcScriptHash_orderLock_ne.2 hhash
    · exact calcScriptHash_matchLock_ne.2 hhash
    · exact sellerLockHash_ne_buyerLockHash (calcScriptHash_sellerLock.symm.trans hhash)

/-- In the run for the order this is a match: the pool and the rate are carried over. -/
theorem transition_mergeTx_order : Transition mergeTx (order 0).toLiveCell (some matched) := by
  have hlisted : mergeTx.rawCellDeps.findIdx?
      (fun dep => matchArgs.channelOutpoint.isAt dep.outPoint) = some 0 := by
    have hdeps : mergeTx.rawCellDeps = [⟨channelCell.outPoint, .code⟩] := rfl
    rw [hdeps]
    decide
  have hinspected : mergeTx.resolvedCellDeps[0]? = some channelCell := rfl
  exact transition_order_of_headers hlisted hinspected rfl rfl
    ⟨by simp [mergeTx], by simp [mergeTx]⟩ signed_mergeTx.1 0

/-- In the run for the match it is an extraction at the genesis block, at which nothing is due
yet. -/
theorem transition_mergeTx_match : Transition mergeTx fresh.toLiveCell (some matched) := by
  have hfresh : IsMatch fresh.toCell matchArgs ⟨0, 3, 0⟩ := isMatch_matchOutput
  have hpool : fresh.unoccupied = 100000 := matchCell_unoccupied (by decide)
  have hpool' : matched.unoccupied = 100000 := matchOutput_unoccupied (by decide)
  have hxudt : xudtOf fresh.toCell = none := matchCell_xudtOf
  have hxudt' : xudtOf matched = none := matchOutput_xudtOf
  have hfree : rentAt fresh.toLiveCell ⟨0, 3, 0⟩ 0 = 0 := by
    rw [rentAt, Nat.zero_sub, Nat.mul_zero]
  have hlisted : ChannelListed mergeTx matchArgs.channelOutpoint :=
    ⟨_, List.mem_cons_self, OutPoint.isAt_iff.mpr rfl⟩
  have hdue : RentDue mergeTx fresh.toLiveCell ⟨0, 3, 0⟩ 0 := by
    refine ⟨?_, fun _ => ?_, by rw [hfree]; decide⟩
    · simp [tip?, mergeTx, headerAt_number]
    · exact List.any_eq_true.mpr ⟨headerAt 1000, by simp [mergeTx], by
        simp [fresh, matchCell, MatchCell.of]⟩
  refine .sellerExtract hfresh isMatch_matchOutput (hxudt.trans hxudt'.symm) rfl signed_mergeTx.1
    signed_mergeTx.2 hlisted hdue ?_ ?_ rfl
  · rw [valueOf_of_type_none hfresh rfl, hpool, hfree]
    decide
  · rw [extracted_of_type_none hfresh rfl, hpool, hpool', hfree]

theorem acceptedBy_mergeTx : AcceptedBy codeHash mergeTx := by
  have hfits : ∀ o, opticrumOutput? codeHash mergeTx = some o → o.occupied < 2 ^ 64 := by
    intro o ho
    obtain rfl := Option.some.inj (opticrumOutput?_mergeTx.symm.trans ho)
    exact matchOutput_fits
  intro c hc
  rw [opticrumInputs_mergeTx] at hc
  rcases List.mem_pair.mp hc with rfl | rfl
  · refine accepts_of_transition groupInputs_mergeTx.1 orderCell_fits hfits ?_
    exact opticrumOutput?_mergeTx ▸ transition_mergeTx_order
  · refine accepts_of_transition groupInputs_mergeTx.2 matchCell_fits hfits ?_
    exact opticrumOutput?_mergeTx ▸ transition_mergeTx_match

/-- The order and the match merge. -/
theorem mergeTx_merges :
    ∃ c k ma d dk md, (mergeTx.groupInputs c.lock).head? = some c ∧
      (mergeTx.groupInputs k.lock).head? = some k ∧ Merges mergeTx c k matched ma d dk md ∧
        ∀ p ∈ opticrumInputs codeHash mergeTx, p.lock = c.lock ∨ p.lock = k.lock := by
  refine (merged_groups acceptedBy_mergeTx opticrumOutput?_mergeTx).resolve_left fun hshared => ?_
  rw [opticrumInputs_mergeTx] at hshared
  exact lock_order_ne_lock_fresh (hshared _ (by simp) _ (by simp))

/-- What the merge consumes is from blocks up to 1070, and from other transactions. -/
theorem mergeTx_inputs_spec : ∀ c ∈ mergeTx.inputs,
    c.block ≤ 1070 ∧ c.outPoint.txHash ≠ Vector.replicate 32 0xe1 := by
  have horder : (order 0).block = 500 := orderCell_block (by decide)
  have hfresh : fresh.block = 1000 := matchCell_block (by decide)
  have hseller : (headerAt 1).number.toNat = 1 := headerAt_number (by decide)
  simp only [mergeTx, List.forall_mem_cons]
  exact ⟨⟨by omega, by decide⟩, ⟨by omega, by decide⟩, ⟨hseller.le.trans (by decide), by decide⟩,
    List.forall_mem_nil _⟩

/-- A chain that holds what the merge consumes. -/
def mergeChain : Chain where
  live := mergeTx.inputs
  tip := 1070
  dated c hc := (mergeTx_inputs_spec c hc).1

theorem mergeChain_block : mergeChain.tip ≤ (committed mergeTx).header.number.toNat := by
  exact (by decide : 1070 ≤ 1080).trans (headerAt_number (by decide)).ge

/-- The order is spent by its seller, and goes on under its parties. -/
theorem mergeTx_keeps :
    (∀ m ∈ escrowMoves codeHash (some (order 0).toLiveCell) [committed mergeTx],
        ∃ k : LiveCell, m.source = some k ∧ KeepsParties (order 0).toCell k.toCell ∧
          SpentByParty codeHash m.label k.toCell) ∧
      ∀ c', escrowAfter codeHash (some (order 0).toLiveCell) [committed mergeTx] = some c' →
        c' ∈ (mergeChain.commit (committed mergeTx) mergeChain_block).live ∧
          KeepsParties (order 0).toCell c'.toCell := by
  have run : Run (Commits codeHash) mergeChain
      [⟨mergeChain, committed mergeTx, mergeChain.commit (committed mergeTx) mergeChain_block⟩]
      (mergeChain.commit (committed mergeTx) mergeChain_block) := by
    refine .single (.of_txHash (fun _ => id) acceptedBy_mergeTx mergeChain_block ?_ ?_)
    · have hblock : (committed mergeTx).header.number.toNat = 1080 := headerAt_number (by decide)
      rw [hblock]
      intro header hheader
      simp only [committed, mergeTx, List.mem_cons, List.not_mem_nil, or_false] at hheader
      rcases hheader with rfl | rfl | rfl | rfl
      all_goals exact (headerAt_number (by decide)).trans_le (by decide)
    · exact fun k hk => (mergeTx_inputs_spec k hk).2
  have hlive : (order 0).toLiveCell ∈ mergeChain.live := List.mem_cons_self
  have hlock : isOpticrumLock codeHash (order 0).lock = true := isOpticrumLock_orderCell
  exact parties_kept run hlive hlock

/-- The cell the extracted match goes on in does not meet the other match. -/
theorem extraction_keeps_apart : extractedCell.outPoint ≠ refilled.outPoint := by
  have hpoint : fresh.outPoint ≠ refilled.outPoint := by decide
  have hlock : isOpticrumLock codeHash extractedOnce.lock = true := isOpticrumLock_matchCell
  have hother : refilled.toLiveCell ∉ extraction.tx.inputs := by
    intro hin
    rcases List.mem_pair.mp hin with h | h
    · exact hpoint (congrArg LiveCell.outPoint h).symm
    · exact absurd (congrArg LiveCell.outPoint h) (by decide)
  have hone : OneOfEach codeHash extractionMoves := by
    intro m hm
    obtain rfl := List.mem_singleton.mp hm
    refine ⟨?_, fun _ => solo_extraction _ hm⟩
    rw [show opticrumInputs codeHash extraction.tx = [fresh.toLiveCell] from
      opticrumInputs_spend isOpticrumLock_matchCell (by decide)]
    exact List.pairwise_singleton _ _
  refine escrows_never_merge (c := fresh.toLiveCell) (k := refilled.toLiveCell) run_extraction
    hone (by simp [marketChain, marketCells]) (by simp [marketChain, marketCells])
    isOpticrumLock_matchCell isOpticrumLock_matchCell hpoint ?_ ?_
  · have hfollow : follow codeHash fresh.toLiveCell extraction = some extractedCell := by
      rw [follow_of_mem (by simp [extraction, extractTx, spend])]
      simp [Committed.created, extraction, extractTx, spend, hlock, extractedCell]
    simp only [extractionMoves, List.map_singleton, escrowAfter, hfollow]
  · simp only [extractionMoves, List.map_singleton, escrowAfter, follow_of_not_mem hother]

end Market

end Opticrum
