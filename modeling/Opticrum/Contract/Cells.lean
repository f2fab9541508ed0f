import Opticrum.Contract.Verifiers

/-!
# Cells as the contract reads them

What the root verifier learns about one cell depends on that cell alone.  This
module says so: `StateOf c st` relates a cell to the state the root builds for
it, and one lemma per helper of `utils.rs` identifies what the helper returns at
a position that holds the cell `c`.

`MatchCell` and `OrderCell` bundle a cell of the chain with its decoded args and
data and the proof that they are what the contract decodes, so that statements
about "a Match cell" need no side conditions.

## Uniqueness

A cell is an order, a match or neither, and its args and data are determined by its bytes:
`IsMatch.unique`, `IsOrder.unique`, `IsMatch.not_isOrder`.  In the other direction the args
determine the lock's args, byte for byte, but the data of a match determines only its first 32
bytes.

`IsMatch.occupied_eq` and `IsOrder.occupied_eq` turn the lengths of the layouts into the price of
a cell; `occupied_congr` says that two cells of one kind have one price.
-/

namespace Opticrum

open Rust Ckb

/-! ## Decoding -/

/-- The token amount in the first 16 bytes of a cell's data.  Orders, matches and plain token
cells all have it there. -/
def xudtAmountOf (data : Bytes) : U128 := BitVec.ofNat 128 (valueLE (data.take xudtAmountLen))

/-- The amount of tokens is the first field of every layout, so what the decoders read first is
what the script reads for itself. -/
theorem u128FromLeBytes_window {data : Bytes} (h : 0 + xudtAmountLen ≤ data.length) :
    u128FromLeBytes (window data 0 xudtAmountLen h) = xudtAmountOf data := by
  simp [u128FromLeBytes, fromLeBytes, xudtAmountOf]

/-- What `parse_xudt` finds in a cell.  A cell without a type script holds no tokens, whatever
its data say. -/
def xudtOf (c : Cell) : Option (U128 × Script) :=
  if c.data.length < xudtAmountLen then none
  else c.type_.map fun s => (xudtAmountOf c.data, s)

/-- The branch of a cell.  The length of the args decides which decoders are tried. -/
def branchOf (c : Cell) : Result Branch := Branch.parse c.lock.args c.data

/-- The cell is an Order with these args and data. -/
def IsOrder (c : Cell) (args : OrderArgs) (data : OrderData) : Prop :=
  branchOf c = .ok (.orderCell args data)

/-- The cell is a Match with these args and data. -/
def IsMatch (c : Cell) (args : MatchArgs) (data : MatchData) : Prop :=
  branchOf c = .ok (.matchCell args data)

instance (c : Cell) (args : OrderArgs) (data : OrderData) : Decidable (IsOrder c args data) :=
  inferInstanceAs (Decidable (branchOf c = _))

instance (c : Cell) (args : MatchArgs) (data : MatchData) : Decidable (IsMatch c args data) :=
  inferInstanceAs (Decidable (branchOf c = _))

/-- The cell is an Order. -/
def isOrderCell (c : Cell) : Bool :=
  match branchOf c with
  | .ok (.orderCell _ _) => true
  | _ => false

/-- The cell is a Match. -/
def isMatchCell (c : Cell) : Bool :=
  match branchOf c with
  | .ok (.matchCell _ _) => true
  | _ => false

/-- The test for an order: args and data decode. -/
theorem isOrderCell_iff {c : Cell} : isOrderCell c = true ↔ ∃ a d, IsOrder c a d := by
  unfold isOrderCell IsOrder
  split
  · next a d h => exact ⟨fun _ => ⟨a, d, h⟩, fun _ => rfl⟩
  · next h => exact ⟨fun h' => by simp at h', fun ⟨a, d, h'⟩ => absurd h' (h a d)⟩

/-- The test for a match likewise. -/
theorem isMatchCell_iff {c : Cell} : isMatchCell c = true ↔ ∃ a d, IsMatch c a d := by
  unfold isMatchCell IsMatch
  split
  · next a d h => exact ⟨fun _ => ⟨a, d, h⟩, fun _ => rfl⟩
  · next h => exact ⟨fun h' => by simp at h', fun ⟨a, d, h'⟩ => absurd h' (h a d)⟩

theorem IsMatch.isMatchCell {c : Cell} {a : MatchArgs} {d : MatchData} (h : IsMatch c a d) :
    isMatchCell c = true := isMatchCell_iff.mpr ⟨a, d, h⟩

theorem mapProtoErr_eq_ok_iff {α : Type} {x : Outcome String α} {e : OpticrumError} {a : α} :
    mapProtoErr x e = .ok a ↔ x = .ok a := Outcome.mapErr_eq_ok_iff _

@[simp] theorem fail_ne_ok {α : Type} (e : OpticrumError) (a : α) :
    (fail e : Result α) ≠ .ok a := Outcome.err_ne_ok _ a

/-- An Order is told by the length of its args; then both decoders must accept. -/
theorem parse_eq_orderCell_iff {args data : Bytes} {a : OrderArgs} {d : OrderData} :
    Branch.parse args data = .ok (.orderCell a d) ↔
      args = a.toBytes.toList ∧ data = d.toBytes.toList := by
  unfold Branch.parse
  split
  · next hlen =>
    simp only [Outcome.bind_eq_ok_iff, mapProtoErr_eq_ok_iff, OrderArgs.fromSlice_eq_ok_iff,
      OrderData.fromSlice_eq_ok_iff, Except.ok.injEq, Branch.orderCell.injEq]
    constructor
    · rintro ⟨a', ha, d', hd, rfl, rfl⟩
      exact ⟨ha, hd⟩
    · rintro ⟨ha, hd⟩
      exact ⟨a, ha, d, hd, rfl, rfl⟩
  · next hlen =>
    have hargs : args ≠ a.toBytes.toList := fun h => hlen (by simp [h])
    split <;> simp [hargs]

/-- A Match likewise; its data may be longer than the 32 bytes that are decoded. -/
theorem parse_eq_matchCell_iff {args data : Bytes} {a : MatchArgs} {d : MatchData} :
    Branch.parse args data = .ok (.matchCell a d) ↔
      args = a.toBytes.toList ∧ matchDataLen ≤ data.length ∧
        data.take matchDataLen = d.toBytes.toList := by
  unfold Branch.parse
  split
  · next hlen =>
    have hargs : args ≠ a.toBytes.toList := by
      intro h
      rw [h, Vector.length_toList] at hlen
      exact absurd hlen (by decide)
    simp [hargs]
  · split
    · next hlen =>
      simp only [Outcome.bind_eq_ok_iff, mapProtoErr_eq_ok_iff, MatchArgs.fromSlice_eq_ok_iff,
        MatchData.fromSlice_eq_ok_iff, Except.ok.injEq, Branch.matchCell.injEq]
      constructor
      · rintro ⟨a', ha, d', hd, rfl, rfl⟩
        exact ⟨ha, hd⟩
      · rintro ⟨ha, hd⟩
        exact ⟨a, ha, d, hd, rfl, rfl⟩
    · next hlen =>
      have hargs : args ≠ a.toBytes.toList := fun h => hlen (by simp [h])
      simp [hargs]

/-- A cell that carries the encodings of args and data is an Order with these. -/
theorem isOrder_of_toBytes {c : Cell} {a : OrderArgs} {d : OrderData}
    (hargs : c.lock.args = a.toBytes.toList) (hdata : c.data = d.toBytes.toList) :
    IsOrder c a d := by
  rw [IsOrder, branchOf, hargs, hdata, parse_eq_orderCell_iff]
  exact ⟨rfl, rfl⟩

/-- A cell that carries the encodings of args and data is a Match with these. -/
theorem isMatch_of_toBytes {c : Cell} {a : MatchArgs} {d : MatchData}
    (hargs : c.lock.args = a.toBytes.toList) (hdata : c.data = d.toBytes.toList) :
    IsMatch c a d := by
  rw [IsMatch, branchOf, hargs, hdata, parse_eq_matchCell_iff]
  exact ⟨rfl, (Vector.length_toList).ge, take_toList_self _⟩

/-- Args that decode are the encoding of what they decode to. -/
theorem IsOrder.args_eq {c : Cell} {a : OrderArgs} {d : OrderData} (h : IsOrder c a d) :
    c.lock.args = a.toBytes.toList := (parse_eq_orderCell_iff.mp h).1

/-- The args of a match are the 133 bytes they are written as. -/
theorem IsMatch.args_eq {c : Cell} {a : MatchArgs} {d : MatchData} (h : IsMatch c a d) :
    c.lock.args = a.toBytes.toList := (parse_eq_matchCell_iff.mp h).1

/-! ## Encodings are injective -/

/-- Different args of orders have different bytes. -/
theorem OrderArgs.toBytes_injective {a b : OrderArgs}
    (h : a.toBytes.toList = b.toBytes.toList) : a = b :=
  OrderArgs.codec_exact.lossless.encode_injective h

/-- Different args of matches have different bytes. -/
theorem MatchArgs.toBytes_injective {a b : MatchArgs}
    (h : a.toBytes.toList = b.toBytes.toList) : a = b :=
  MatchArgs.codec_exact.lossless.encode_injective h

/-- A cell decodes in at most one way. -/
theorem IsMatch.unique {c : Cell} {a a' : MatchArgs} {d d' : MatchData}
    (h : IsMatch c a d) (h' : IsMatch c a' d') : a = a' ∧ d = d' := by
  have hbranch := Except.ok.inj (h.symm.trans h')
  exact Branch.matchCell.inj hbranch

/-- An order has one pair of args and data: decoding is a function. -/
theorem IsOrder.unique {c : Cell} {a a' : OrderArgs} {d d' : OrderData}
    (h : IsOrder c a d) (h' : IsOrder c a' d') : a = a' ∧ d = d' := by
  have hbranch := Except.ok.inj (h.symm.trans h')
  exact Branch.orderCell.inj hbranch

/-- No cell is both, as the args of the two kinds differ in length. -/
theorem IsMatch.not_isOrder {c : Cell} {a : MatchArgs} {d : MatchData} (h : IsMatch c a d)
    {a' : OrderArgs} {d' : OrderData} : ¬ IsOrder c a' d' := by
  intro h'
  have hbranch := Except.ok.inj (h.symm.trans h')
  simp at hbranch

/-- The token amount of a Match cell is the one in its decoded data. -/
theorem IsMatch.xudtAmountOf_eq {c : Cell} {a : MatchArgs} {d : MatchData}
    (h : IsMatch c a d) : xudtAmountOf c.data = d.xudtAmount := by
  obtain ⟨-, hlen, htake⟩ := parse_eq_matchCell_iff.mp h
  have hamount : c.data.take xudtAmountLen = (u128ToLeBytes d.xudtAmount).toList := by
    rw [MatchData.toBytes, Vector.toList_append, Vector.toList_append,
      eq_append₃_toList_iff] at htake
    simpa [List.take_take] using htake.2.1
  rw [xudtAmountOf, hamount]
  exact u128FromLeBytes_u128ToLeBytes d.xudtAmount

/-- The amount the script reads off the data is the one the order's layout has. -/
theorem IsOrder.xudtAmountOf_eq {c : Cell} {a : OrderArgs} {d : OrderData}
    (h : IsOrder c a d) : xudtAmountOf c.data = d.xudtAmount := by
  have hdata := (parse_eq_orderCell_iff.mp h).2
  have hamount : c.data.take xudtAmountLen = (u128ToLeBytes d.xudtAmount).toList := by
    rw [OrderData.toBytes, Vector.toList_append, Vector.toList_append,
      eq_append₃_toList_iff] at hdata
    exact hdata.2.1
  rw [xudtAmountOf, hamount]
  exact u128FromLeBytes_u128ToLeBytes d.xudtAmount

/-- A Match cell holds tokens exactly when it has a type script. -/
theorem IsMatch.xudtOf_eq {c : Cell} {a : MatchArgs} {d : MatchData} (h : IsMatch c a d) :
    xudtOf c = c.type_.map fun s => (d.xudtAmount, s) := by
  have hlen := (parse_eq_matchCell_iff.mp h).2.1
  have hnot : ¬ c.data.length < xudtAmountLen := by
    simp only [matchDataLen, xudtAmountLen, shannonsPerBlockLen, blocknumberLen] at hlen ⊢
    omega
  rw [xudtOf, if_neg hnot, h.xudtAmountOf_eq]

/-- The tokens of an order: the amount of its data, under its type script. -/
theorem IsOrder.xudtOf_eq {c : Cell} {a : OrderArgs} {d : OrderData} (h : IsOrder c a d) :
    xudtOf c = c.type_.map fun s => (d.xudtAmount, s) := by
  have hnot : ¬ c.data.length < xudtAmountLen := by
    rw [(parse_eq_orderCell_iff.mp h).2, Vector.length_toList]
    decide
  rw [xudtOf, if_neg hnot, h.xudtAmountOf_eq]

/-- What a cell occupies depends on its scripts and the length of its data. -/
theorem occupied_congr {c c' : Cell} (hlock : c'.lock = c.lock) (htype : c'.type_ = c.type_)
    (hdata : c'.data.length = c.data.length) : c'.occupied = c.occupied := by
  rw [Cell.occupied, Cell.occupiedBytes, hlock, htype, hdata, Cell.occupied, Cell.occupiedBytes]

/-- An order occupies 138 CKB, and what its type script takes. -/
theorem IsOrder.occupied_eq {c : Cell} {a : OrderArgs} {d : OrderData} (h : IsOrder c a d) :
    c.occupied = oneCkb * (138 + c.type_.elim 0 Script.occupiedBytes) := by
  rw [Cell.occupied, Cell.occupiedBytes, Script.occupiedBytes, h.args_eq,
    (parse_eq_orderCell_iff.mp h).2, Vector.length_toList, Vector.length_toList]
  congr 1
  simp only [orderArgsLen, orderDataLen, fiberPubkeyLen, lockHashLen, xudtAmountLen,
    channelCapacityLen, shannonsPerBlockLen]
  omega

/-- A match with data of 32 bytes occupies 206 CKB, and what its type script takes.  Its data
may be longer, and it then occupies more. -/
theorem IsMatch.occupied_eq {c : Cell} {a : MatchArgs} {d : MatchData} (h : IsMatch c a d)
    (hdata : c.data.length = matchDataLen) :
    c.occupied = oneCkb * (206 + c.type_.elim 0 Script.occupiedBytes) := by
  rw [Cell.occupied, Cell.occupiedBytes, Script.occupiedBytes, h.args_eq, hdata,
    Vector.length_toList]
  congr 1
  simp only [matchArgsLen, matchDataLen, orderArgsLen, channelOutpointLen, fiberPubkeyLen,
    lockHashLen, xudtAmountLen, shannonsPerBlockLen, blocknumberLen]
  omega

/-! ## What the helpers return at a cell -/

section Helpers

variable {env : Env} {index : ℕ} {source : Source} {c : Cell}

/-- An error that is replaced by another leaves what is returned. -/
theorem sysCallOr_eq_ok_iff {α : Type} {x : Outcome SysError α} {e : OpticrumError} {a : α} :
    sysCallOr e x = .ok a ↔ x = .ok a := Outcome.mapErr_eq_ok_iff _

/-- A check returns nothing but that its condition holds. -/
@[simp] theorem require_eq_ok_iff {p : Prop} [Decidable p] {e : OpticrumError} {u : PUnit} :
    require p e = .ok u ↔ p := Outcome.ensure_eq_ok_iff

/-- Reading the tokens of a cell never fails: a type script with too little data behind it
counts as no tokens. -/
theorem parseXudt_eq_ok_iff (h : (env.cells source)[index]? = some c)
    {x : Option (U128 × Script)} :
    parseXudt env index source = .ok x ↔ x = xudtOf c := by
  have hcell := Env.loadCell_of_getElem? h
  simp only [parseXudt, sysCall, Env.loadCellData, Env.loadCellType, hcell, Outcome.ok_bind,
    Outcome.mapErr_ok, xudtOf]
  split
  · simp [eq_comm]
  · next hlen =>
    have hle : 0 + xudtAmountLen ≤ c.data.length := by omega
    rw [readArray_eq_ok hle, Outcome.ok_bind]
    cases c.type_ with
    | none => simp [eq_comm]
    | some s => simp [u128FromLeBytes_window, eq_comm]

/-- The script computes the unoccupied capacity of a cell that is there, provided that what it
occupies fits in 64 bits. -/
theorem getUnoccupiedCapacity_eq_ok_iff (h : (env.cells source)[index]? = some c) {v : U64} :
    getUnoccupiedCapacity env index source = .ok v ↔
      c.occupied < 2 ^ 64 ∧ v.toNat = c.unoccupied := by
  have hcell := Env.loadCell_of_getElem? h
  simp only [getUnoccupiedCapacity, sysCall, Env.loadCellCapacity,
    Env.loadCellOccupiedCapacity, hcell, Outcome.ok_bind, Outcome.mapErr_ok]
  split
  · next hfit =>
    have hocc : (BitVec.ofNat 64 c.occupied).toNat = c.occupied := by
      rw [toNat_ofNat_of_lt hfit]
    have hsub : (saturatingSub c.capacity (BitVec.ofNat 64 c.occupied)).toNat =
        c.unoccupied := by
      rw [toNat_saturatingSub, hocc, Cell.unoccupied]
    rw [Outcome.mapErr_ok, Outcome.ok_bind, Except.ok.injEq, ← BitVec.toNat_inj, hsub]
    exact ⟨fun hv => ⟨hfit, hv.symm⟩, fun hv => hv.2.symm⟩
  · next hfit =>
    refine ⟨fun hv => ?_, fun hv => absurd hv.1 hfit⟩
    obtain ⟨o, ho, -⟩ := Outcome.bind_eq_ok_iff.mp hv
    exact absurd (Outcome.mapErr_eq_ok_iff _ |>.mp ho) (Outcome.err_ne_ok _ o)

end Helpers

/-! ## The state of a cell -/

/-- `st` is the state the root verifier builds for `c`: the decoded branch, the unoccupied
capacity in 64 bits and the tokens.  The state exists when the cell decodes and what it occupies
fits. -/
structure StateOf (c : Cell) (st : OpticrumState) : Prop where
  branch : branchOf c = .ok st.branch
  fits : c.occupied < 2 ^ 64
  unoccupied : st.unoccupiedCapacity.toNat = c.unoccupied
  xudt : st.xudt = xudtOf c

/-- The state of a cell, given its branch. -/
def stateWith (c : Cell) (branch : Branch) : OpticrumState :=
  ⟨branch, BitVec.ofNat 64 c.unoccupied, xudtOf c⟩

/-- There is a state for every cell that decodes, the one with the capacity and the tokens of
the cell. -/
theorem stateOf_stateWith {c : Cell} {branch : Branch} (hbranch : branchOf c = .ok branch)
    (hfits : c.occupied < 2 ^ 64) : StateOf c (stateWith c branch) where
  branch := hbranch
  fits := hfits
  unoccupied := by
    have hlt : c.unoccupied < 2 ^ 64 := lt_of_le_of_lt (Nat.sub_le _ _) c.capacity.isLt
    rw [stateWith, toNat_ofNat_of_lt hlt]
  xudt := rfl

/-- A cell has at most one state. -/
theorem StateOf.unique {c : Cell} {st st' : OpticrumState} (h : StateOf c st)
    (h' : StateOf c st') : st = st' := by
  obtain ⟨branch, unocc, xudt⟩ := st
  obtain ⟨branch', unocc', xudt'⟩ := st'
  have hb : branch = branch' := Except.ok.inj (h.branch.symm.trans h'.branch)
  have hu : unocc = unocc' := BitVec.eq_of_toNat_eq (h.unoccupied.trans h'.unoccupied.symm)
  have hx : xudt = xudt' := h.xudt.trans h'.xudt.symm
  rw [hb, hu, hx]

/-! ## Order and Match cells of the chain -/

/-- A live Order cell: its lock args and data decode.  The fields carry what they decode to, so
that a result about an order needs no hypothesis to name its terms. -/
structure OrderCell extends LiveCell where
  args : OrderArgs
  orderData : OrderData
  decodes : IsOrder toCell args orderData

/-- A live Match cell: its lock args and data decode.  Its data may be longer than 32 bytes;
what is beyond them is not decoded. -/
structure MatchCell extends LiveCell where
  args : MatchArgs
  matchData : MatchData
  decodes : IsMatch toCell args matchData

end Opticrum
