import Opticrum.Ckb.Transaction
import Opticrum.Foundation.Codec

/-!
# Canonical data layouts

The byte-level types shared by the contract and the calculator.  Every
`fromSlice` checks a length and then copies fixed windows of its input; every
`toBytes` writes the same windows back.

Only `MatchData.fromSlice` accepts more bytes than `toBytes` writes: it asks for
*at least* 32 bytes and reads the first 32.

## The codec lemmas

`OrderArgs.fromSlice_eq_ok_iff` and its siblings say in one equivalence which
byte strings are accepted and what they decode to; both directions of a round
trip are read off it.  Where the accepted strings are the encodings, decoder and
encoder form an exact `Codec`.

## Canonical decoding

An exact codec has one encoding for each value and rejects everything else, so the args of two
cells are equal as bytes exactly when they are equal as values.  `MatchData.codec` is not
exact: `MatchData.canonicalAt_iff` gives the inputs at which it behaves like the others, which
are those of at most 32 bytes.  A data field with more decodes to the same value as its first
32, and a shorter one is rejected.

`OutPoint` here is the contract's own 36-byte layout, not the out point of a transaction, and
`OutPoint.isAt` compares the two byte by byte.
-/

namespace Opticrum

open Rust Ckb

/-! ## Length constants -/

/-- A compressed public key: one prefix byte for the parity of `y`, then the 32 bytes of `x`. -/
@[simp] abbrev fiberPubkeyLen : ℕ := 33

/-- A lock hash, the 32-byte digest by which a cell names a party. -/
@[simp] abbrev lockHashLen : ℕ := 32

/-- The args of an Order cell have 65 bytes, the node's key and the buyer. -/
@[simp] abbrev orderArgsLen : ℕ := fiberPubkeyLen + lockHashLen

/-- A channel is named by its out point: a transaction hash and a `u32` index. -/
@[simp] abbrev channelOutpointLen : ℕ := 32 + 4

/-- The args of a Match cell have 133 bytes.  They begin with those of its order; the length
alone tells the script which of the two kinds of cell it looks at. -/
@[simp] abbrev matchArgsLen : ℕ := orderArgsLen + channelOutpointLen + lockHashLen

/-- An amount of tokens is a `u128`, where the xUDT standard puts it: at the start of the data. -/
@[simp] abbrev xudtAmountLen : ℕ := 16

/-- The capacity a channel has to have, a `u64` in shannons. -/
@[simp] abbrev channelCapacityLen : ℕ := 8

/-- The rent per block, a `u64`; in units of the token where the cell holds tokens. -/
@[simp] abbrev shannonsPerBlockLen : ℕ := 8

/-- A block number, a `u64`. -/
@[simp] abbrev blocknumberLen : ℕ := 8

/-- The data of an Order cell has 32 bytes. -/
@[simp] abbrev orderDataLen : ℕ := xudtAmountLen + channelCapacityLen + shannonsPerBlockLen

/-- And so has that of a Match cell.  Nothing but the args tells the two layouts apart. -/
@[simp] abbrev matchDataLen : ℕ := xudtAmountLen + shannonsPerBlockLen + blocknumberLen

/-! ## Integers -/

/-- `u32::from_le_bytes`. -/
def u32FromLeBytes (bs : Vector UInt8 4) : U32 := fromLeBytes bs

/-- `u64::from_le_bytes`. -/
def u64FromLeBytes (bs : Vector UInt8 8) : U64 := fromLeBytes bs

/-- `u128::from_le_bytes`. -/
def u128FromLeBytes (bs : Vector UInt8 16) : U128 := fromLeBytes bs

/-- `u32::to_le_bytes`. -/
def u32ToLeBytes (v : U32) : Vector UInt8 4 := toLeBytes (n := 4) v

/-- `u64::to_le_bytes`. -/
def u64ToLeBytes (v : U64) : Vector UInt8 8 := toLeBytes (n := 8) v

/-- `u128::to_le_bytes`. -/
def u128ToLeBytes (v : U128) : Vector UInt8 16 := toLeBytes (n := 16) v

/-! ## OutPoint -/

/-- A channel out point: `tx_hash[32] | index[4]`. -/
structure OutPoint where
  txHash : Vector UInt8 32
  index : U32
  deriving DecidableEq, Repr

namespace OutPoint

/-- Exactly 36 bytes are read as an out point. -/
def fromSlice (data : Bytes) : Outcome String OutPoint := do
  Outcome.ensure (data.length = channelOutpointLen) "Bad Channel outpoint length"
  let txHash ← readArray data 0 32
  let index ← readArray data 32 4
  .ok ⟨txHash, u32FromLeBytes index⟩

/-- The 36 bytes of an out point, the hash first and the index in little-endian order. -/
def toBytes (o : OutPoint) : Vector UInt8 channelOutpointLen :=
  o.txHash ++ u32ToLeBytes o.index

/-- `matches`: the packed out point has the same 36 bytes. -/
def isAt (o : OutPoint) (other : Ckb.OutPoint) : Bool :=
  other.asSlice = o.toBytes.toList

end OutPoint

/-! ## CompressedPubkey -/

/-- A 33-byte compressed secp256k1 public key. -/
structure CompressedPubkey where
  bytes : Vector UInt8 fiberPubkeyLen
  deriving DecidableEq, Repr

namespace CompressedPubkey

/-- Exactly 33 bytes are taken for a key.  The prefix byte is not looked at, so that the key
need not be a point of the curve. -/
def fromSlice (data : Bytes) : Outcome String CompressedPubkey := do
  Outcome.ensure (data.length = fiberPubkeyLen) "Bad compressed pubkey length"
  let bytes ← readArray data 0 fiberPubkeyLen
  .ok ⟨bytes⟩

/-- The 33 bytes of a key. -/
def toBytes (pk : CompressedPubkey) : Vector UInt8 fiberPubkeyLen := pk.bytes

end CompressedPubkey

/-! ## OrderArgs -/

/-- Lock args of an Order cell: `fiber_pubkey[33] | buyer_lock_hash[32]`. -/
structure OrderArgs where
  fiberPubkey : CompressedPubkey
  buyerLockHash : Vector UInt8 lockHashLen
  deriving DecidableEq, Repr

namespace OrderArgs

/-- Exactly 65 bytes are read as the args of an Order.  The key is read by its own decoder,
which never fails here: the window it is given has the right length. -/
def fromSlice (args : Bytes) : Outcome String OrderArgs := do
  Outcome.ensure (args.length = orderArgsLen) "Bad Order args length"
  let pubkeyBytes ← slice args 0 fiberPubkeyLen
  let fiberPubkey ← CompressedPubkey.fromSlice pubkeyBytes
  let buyerLockHash ← readArray args fiberPubkeyLen lockHashLen
  .ok ⟨fiberPubkey, buyerLockHash⟩

/-- The 65 bytes of the args of an Order. -/
def toBytes (a : OrderArgs) : Vector UInt8 orderArgsLen :=
  a.fiberPubkey.toBytes ++ a.buyerLockHash

end OrderArgs

/-! ## OrderData -/

/-- Data of an Order cell:
`xudt_amount[16] | channel_capacity[8] | shannons_per_block[8]`. -/
structure OrderData where
  xudtAmount : U128
  channelCapacity : U64
  shannonsPerBlock : U64
  deriving DecidableEq, Repr

namespace OrderData

/-- Exactly 32 bytes are read as the data of an Order. -/
def fromSlice (data : Bytes) : Outcome String OrderData := do
  Outcome.ensure (data.length = orderDataLen) "Bad Order data length"
  let xudtAmount ← readArray data 0 xudtAmountLen
  let channelCapacity ← readArray data xudtAmountLen channelCapacityLen
  let shannonsPerBlock ← readArray data (xudtAmountLen + channelCapacityLen) shannonsPerBlockLen
  .ok ⟨u128FromLeBytes xudtAmount, u64FromLeBytes channelCapacity,
    u64FromLeBytes shannonsPerBlock⟩

/-- The 32 bytes of the data of an Order. -/
def toBytes (d : OrderData) : Vector UInt8 orderDataLen :=
  u128ToLeBytes d.xudtAmount ++ u64ToLeBytes d.channelCapacity ++
    u64ToLeBytes d.shannonsPerBlock

end OrderData

/-! ## MatchArgs -/

/-- Lock args of a Match cell:
`order_args[65] | channel_outpoint[36] | seller_lock_hash[32]`. -/
structure MatchArgs where
  orderArgs : OrderArgs
  channelOutpoint : OutPoint
  sellerLockHash : Vector UInt8 lockHashLen
  deriving DecidableEq, Repr

namespace MatchArgs

/-- Exactly 133 bytes are read as the args of a Match.  The out point in the middle is the only
part whose error is replaced by one that names it. -/
def fromSlice (args : Bytes) : Outcome String MatchArgs := do
  Outcome.ensure (args.length = matchArgsLen) "Bad Match args length"
  let orderArgsBytes ← slice args 0 orderArgsLen
  let orderArgs ← OrderArgs.fromSlice orderArgsBytes
  let outpointBytes ← slice args orderArgsLen (orderArgsLen + channelOutpointLen)
  let channelOutpoint ←
    (OutPoint.fromSlice outpointBytes).mapErr fun _ => "Bad Channel outpoint"
  let sellerLockHash ← readArray args (orderArgsLen + channelOutpointLen) lockHashLen
  .ok ⟨orderArgs, channelOutpoint, sellerLockHash⟩

/-- The 133 bytes of the args of a Match; the first 65 are those of its order. -/
def toBytes (a : MatchArgs) : Vector UInt8 matchArgsLen :=
  a.orderArgs.toBytes ++ a.channelOutpoint.toBytes ++ a.sellerLockHash

end MatchArgs

/-! ## MatchData -/

/-- Data of a Match cell:
`xudt_amount[16] | shannons_per_block[8] | last_extraction_block[8]`.
`last_extraction_block` is `0` until the first extraction. -/
structure MatchData where
  xudtAmount : U128
  shannonsPerBlock : U64
  lastExtractionBlock : U64
  deriving DecidableEq, Repr

namespace MatchData

/-- What a new match starts from: nothing has been extracted, which the block number 0 stands
for.  A block 0 that the seller shows later is stored as the same number. -/
def new (xudtAmount : U128) (shannonsPerBlock : U64) : MatchData where
  xudtAmount := xudtAmount
  shannonsPerBlock := shannonsPerBlock
  lastExtractionBlock := 0

/-- At least 32 bytes are read as the data of a Match, and what follows the first 32 is ignored.
The sibling decoder of an Order asks for exactly 32. -/
def fromSlice (data : Bytes) : Outcome String MatchData := do
  Outcome.ensure (¬ data.length < matchDataLen) "Bad Match data length"
  let xudtAmount ← readArray data 0 xudtAmountLen
  let shannonsPerBlock ← readArray data xudtAmountLen shannonsPerBlockLen
  let lastExtractionBlock ← readArray data (xudtAmountLen + shannonsPerBlockLen) blocknumberLen
  .ok ⟨u128FromLeBytes xudtAmount, u64FromLeBytes shannonsPerBlock,
    u64FromLeBytes lastExtractionBlock⟩

/-- The 32 bytes of the data of a Match. -/
def toBytes (d : MatchData) : Vector UInt8 matchDataLen :=
  u128ToLeBytes d.xudtAmount ++ u64ToLeBytes d.shannonsPerBlock ++
    u64ToLeBytes d.lastExtractionBlock

end MatchData

/-! ## Codec lemmas -/

/-- Four bytes survive the integer they are read as. -/
@[simp] theorem u32ToLeBytes_u32FromLeBytes (bs : Vector UInt8 4) :
    u32ToLeBytes (u32FromLeBytes bs) = bs := toLeBytes_fromLeBytes (n := 4) bs

@[simp] theorem u32FromLeBytes_u32ToLeBytes (v : U32) :
    u32FromLeBytes (u32ToLeBytes v) = v := fromLeBytes_toLeBytes (n := 4) v

@[simp] theorem u64ToLeBytes_u64FromLeBytes (bs : Vector UInt8 8) :
    u64ToLeBytes (u64FromLeBytes bs) = bs := toLeBytes_fromLeBytes (n := 8) bs

@[simp] theorem u64FromLeBytes_u64ToLeBytes (v : U64) :
    u64FromLeBytes (u64ToLeBytes v) = v := fromLeBytes_toLeBytes (n := 8) v

@[simp] theorem u128ToLeBytes_u128FromLeBytes (bs : Vector UInt8 16) :
    u128ToLeBytes (u128FromLeBytes bs) = bs := toLeBytes_fromLeBytes (n := 16) bs

@[simp] theorem u128FromLeBytes_u128ToLeBytes (v : U128) :
    u128FromLeBytes (u128ToLeBytes v) = v := fromLeBytes_toLeBytes (n := 16) v

/-- Reading the two fields of a 36-byte out point. -/
theorem OutPoint.fromSlice_eq_ok_iff {bs : Bytes} {v : OutPoint} :
    OutPoint.fromSlice bs = .ok v ↔ bs = v.toBytes.toList := by
  simp only [OutPoint.toBytes, Vector.toList_append, eq_append_toList_iff]
  constructor
  · intro h
    obtain ⟨_, hlen, h⟩ := Outcome.bind_eq_ok_iff.mp h
    obtain ⟨txHash, htx, h⟩ := Outcome.bind_eq_ok_iff.mp h
    obtain ⟨index, hindex, h⟩ := Outcome.bind_eq_ok_iff.mp h
    obtain rfl := Except.ok.inj h
    rw [readArray_eq_ok_iff] at htx hindex
    exact ⟨by simpa using hlen, by simpa using htx.2, by simpa using hindex.2⟩
  · rintro ⟨hlen, htx, hindex⟩
    have htx' : (readArray bs 0 32 : Outcome String _) = .ok v.txHash :=
      readArray_eq_ok_iff.mpr ⟨by omega, by simpa using htx⟩
    have hindex' : (readArray bs 32 4 : Outcome String _) = .ok (u32ToLeBytes v.index) :=
      readArray_eq_ok_iff.mpr ⟨by omega, hindex⟩
    simp [OutPoint.fromSlice, Outcome.ensure, hlen, htx', hindex']

/-- The packed out point with the same fields. -/
def OutPoint.packed (o : OutPoint) : Ckb.OutPoint := ⟨o.txHash, o.index⟩

/-- Equal bytes, equal out points. -/
theorem OutPoint.isAt_iff {o : OutPoint} {p : Ckb.OutPoint} : o.isAt p = true ↔ p = o.packed := by
  obtain ⟨txHash, index⟩ := p
  rw [isAt, decide_eq_true_eq, Ckb.OutPoint.asSlice, toBytes, Vector.toList_append, packed,
    Ckb.OutPoint.mk.injEq]
  constructor
  · intro h
    obtain ⟨hhash, hindex⟩ := List.append_inj h (by simp)
    refine ⟨Vector.toList_inj.mp hhash, ?_⟩
    have hbytes : u32ToLeBytes index = u32ToLeBytes o.index := Vector.toList_inj.mp hindex
    rw [← u32FromLeBytes_u32ToLeBytes index, hbytes, u32FromLeBytes_u32ToLeBytes]
  · rintro ⟨rfl, rfl⟩
    rfl

/-- A key is accepted exactly as the 33 bytes it is written as. -/
theorem CompressedPubkey.fromSlice_eq_ok_iff {bs : Bytes} {v : CompressedPubkey} :
    CompressedPubkey.fromSlice bs = .ok v ↔ bs = v.toBytes.toList := by
  constructor
  · intro h
    obtain ⟨_, hlen, h⟩ := Outcome.bind_eq_ok_iff.mp h
    obtain ⟨bytes, hbytes, h⟩ := Outcome.bind_eq_ok_iff.mp h
    obtain rfl := Except.ok.inj h
    rw [Outcome.ensure_eq_ok_iff] at hlen
    rw [readArray_eq_ok_iff, List.drop_zero, List.take_of_length_le hlen.le] at hbytes
    exact hbytes.2
  · rintro rfl
    have hbytes : (readArray v.bytes.toList 0 fiberPubkeyLen : Outcome String _) =
        .ok v.bytes :=
      readArray_eq_ok_iff.mpr ⟨by simp, by simp⟩
    simp [CompressedPubkey.fromSlice, CompressedPubkey.toBytes, Outcome.ensure, hbytes]

/-- The args of an Order are accepted exactly as the 65 bytes they are written as.  Each of the
two windows is a field, and the windows fill the string. -/
theorem OrderArgs.fromSlice_eq_ok_iff {bs : Bytes} {v : OrderArgs} :
    OrderArgs.fromSlice bs = .ok v ↔ bs = v.toBytes.toList := by
  simp only [OrderArgs.toBytes, Vector.toList_append, eq_append_toList_iff]
  constructor
  · intro h
    obtain ⟨_, hlen, h⟩ := Outcome.bind_eq_ok_iff.mp h
    obtain ⟨part, hpart, h⟩ := Outcome.bind_eq_ok_iff.mp h
    obtain ⟨pubkey, hpubkey, h⟩ := Outcome.bind_eq_ok_iff.mp h
    obtain ⟨buyer, hbuyer, h⟩ := Outcome.bind_eq_ok_iff.mp h
    obtain rfl := Except.ok.inj h
    rw [slice_eq_ok_iff] at hpart
    rw [CompressedPubkey.fromSlice_eq_ok_iff, ← hpart.2.2] at hpubkey
    rw [readArray_eq_ok_iff] at hbuyer
    exact ⟨by simpa using hlen, by simpa using hpubkey, by simpa using hbuyer.2⟩
  · rintro ⟨hlen, hpubkey, hbuyer⟩
    have hpart : (slice bs 0 fiberPubkeyLen : Outcome String _) =
        .ok v.fiberPubkey.toBytes.toList :=
      slice_eq_ok_iff.mpr ⟨by omega, by omega, by simpa using hpubkey⟩
    have hpubkey' := CompressedPubkey.fromSlice_eq_ok_iff.mpr
      (rfl : v.fiberPubkey.toBytes.toList = _)
    have hbuyer' : (readArray bs fiberPubkeyLen lockHashLen : Outcome String _) =
        .ok v.buyerLockHash :=
      readArray_eq_ok_iff.mpr ⟨by omega, hbuyer⟩
    simp [OrderArgs.fromSlice, Outcome.ensure, hlen, hpart, hpubkey', hbuyer']

/-- The data of an Order is accepted exactly as the 32 bytes it is written as. -/
theorem OrderData.fromSlice_eq_ok_iff {bs : Bytes} {v : OrderData} :
    OrderData.fromSlice bs = .ok v ↔ bs = v.toBytes.toList := by
  simp only [OrderData.toBytes, Vector.toList_append, eq_append₃_toList_iff]
  constructor
  · intro h
    obtain ⟨_, hlen, h⟩ := Outcome.bind_eq_ok_iff.mp h
    obtain ⟨amount, hamount, h⟩ := Outcome.bind_eq_ok_iff.mp h
    obtain ⟨channel, hchannel, h⟩ := Outcome.bind_eq_ok_iff.mp h
    obtain ⟨rate, hrate, h⟩ := Outcome.bind_eq_ok_iff.mp h
    obtain rfl := Except.ok.inj h
    rw [readArray_eq_ok_iff] at hamount hchannel hrate
    refine ⟨by simpa using hlen, by simpa using hamount.2, by simpa using hchannel.2, ?_⟩
    simpa using hrate.2
  · rintro ⟨hlen, hamount, hchannel, hrate⟩
    have hamount' : (readArray bs 0 xudtAmountLen : Outcome String _) =
        .ok (u128ToLeBytes v.xudtAmount) :=
      readArray_eq_ok_iff.mpr ⟨by simp [hlen], by simpa using hamount⟩
    have hchannel' : (readArray bs xudtAmountLen channelCapacityLen : Outcome String _) =
        .ok (u64ToLeBytes v.channelCapacity) :=
      readArray_eq_ok_iff.mpr ⟨by simp [hlen], hchannel⟩
    have hrate' : (readArray bs (xudtAmountLen + channelCapacityLen) shannonsPerBlockLen :
        Outcome String _) = .ok (u64ToLeBytes v.shannonsPerBlock) :=
      readArray_eq_ok_iff.mpr ⟨by simp [hlen], hrate⟩
    simp only [OrderData.fromSlice, Outcome.ensure, hlen, hamount', hchannel', hrate',
      if_true, Outcome.ok_bind, u128FromLeBytes_u128ToLeBytes, u64FromLeBytes_u64ToLeBytes]

/-- The args of a Match are accepted exactly as the 133 bytes they are written as.  Two of the
three windows go to the decoders above, whose lemmas are used here. -/
theorem MatchArgs.fromSlice_eq_ok_iff {bs : Bytes} {v : MatchArgs} :
    MatchArgs.fromSlice bs = .ok v ↔ bs = v.toBytes.toList := by
  simp only [MatchArgs.toBytes, Vector.toList_append, eq_append₃_toList_iff]
  constructor
  · intro h
    obtain ⟨_, hlen, h⟩ := Outcome.bind_eq_ok_iff.mp h
    obtain ⟨orderPart, horderPart, h⟩ := Outcome.bind_eq_ok_iff.mp h
    obtain ⟨orderArgs, horder, h⟩ := Outcome.bind_eq_ok_iff.mp h
    obtain ⟨channelPart, hchannelPart, h⟩ := Outcome.bind_eq_ok_iff.mp h
    obtain ⟨channel, hchannel, h⟩ := Outcome.bind_eq_ok_iff.mp h
    obtain ⟨seller, hseller, h⟩ := Outcome.bind_eq_ok_iff.mp h
    obtain rfl := Except.ok.inj h
    rw [slice_eq_ok_iff] at horderPart hchannelPart
    rw [OrderArgs.fromSlice_eq_ok_iff, ← horderPart.2.2] at horder
    rw [Outcome.mapErr_eq_ok_iff, OutPoint.fromSlice_eq_ok_iff, ← hchannelPart.2.2] at hchannel
    rw [readArray_eq_ok_iff] at hseller
    exact ⟨by simpa using hlen, by simpa using horder, by simpa using hchannel,
      by simpa using hseller.2⟩
  · rintro ⟨hlen, horder, hchannel, hseller⟩
    have horderPart : (slice bs 0 orderArgsLen : Outcome String _) =
        .ok v.orderArgs.toBytes.toList :=
      slice_eq_ok_iff.mpr ⟨by omega, by omega, by simpa using horder⟩
    have horder' := OrderArgs.fromSlice_eq_ok_iff.mpr (rfl : v.orderArgs.toBytes.toList = _)
    have hchannelPart : (slice bs orderArgsLen (orderArgsLen + channelOutpointLen) :
        Outcome String _) = .ok v.channelOutpoint.toBytes.toList :=
      slice_eq_ok_iff.mpr ⟨by omega, by omega, by simpa using hchannel⟩
    have hchannel' :=
      OutPoint.fromSlice_eq_ok_iff.mpr (rfl : v.channelOutpoint.toBytes.toList = _)
    have hseller' : (readArray bs (orderArgsLen + channelOutpointLen) lockHashLen :
        Outcome String _) = .ok v.sellerLockHash :=
      readArray_eq_ok_iff.mpr ⟨by omega, hseller⟩
    simp only [MatchArgs.fromSlice, Outcome.ensure, hlen, if_true, Outcome.ok_bind,
      horderPart, horder', hchannelPart, hchannel', Outcome.mapErr_ok, hseller']

/-- The lax decoder: any string that starts with the 32 bytes of `v`. -/
theorem MatchData.fromSlice_eq_ok_iff {bs : Bytes} {v : MatchData} :
    MatchData.fromSlice bs = .ok v ↔
      matchDataLen ≤ bs.length ∧ bs.take matchDataLen = v.toBytes.toList := by
  simp only [MatchData.toBytes, Vector.toList_append, eq_append₃_toList_iff,
    List.length_take, List.drop_take, List.take_take]
  constructor
  · intro h
    obtain ⟨_, hlen, h⟩ := Outcome.bind_eq_ok_iff.mp h
    obtain ⟨amount, hamount, h⟩ := Outcome.bind_eq_ok_iff.mp h
    obtain ⟨rate, hrate, h⟩ := Outcome.bind_eq_ok_iff.mp h
    obtain ⟨last, hlast, h⟩ := Outcome.bind_eq_ok_iff.mp h
    obtain rfl := Except.ok.inj h
    rw [Outcome.ensure_eq_ok_iff, not_lt] at hlen
    rw [readArray_eq_ok_iff] at hamount hrate hlast
    refine ⟨hlen, Nat.min_eq_left hlen, ?_, ?_, ?_⟩
    · simpa using hamount.2
    · simpa using hrate.2
    · simpa using hlast.2
  · rintro ⟨hlen, -, hamount, hrate, hlast⟩
    have hlen' : 32 ≤ bs.length := hlen
    have hamount' : (readArray bs 0 xudtAmountLen : Outcome String _) =
        .ok (u128ToLeBytes v.xudtAmount) :=
      readArray_eq_ok_iff.mpr ⟨by simp only [xudtAmountLen]; omega, hamount⟩
    have hrate' : (readArray bs xudtAmountLen shannonsPerBlockLen : Outcome String _) =
        .ok (u64ToLeBytes v.shannonsPerBlock) :=
      readArray_eq_ok_iff.mpr
        ⟨by simp only [xudtAmountLen, shannonsPerBlockLen]; omega, hrate⟩
    have hlast' : (readArray bs (xudtAmountLen + shannonsPerBlockLen) blocknumberLen :
        Outcome String _) = .ok (u64ToLeBytes v.lastExtractionBlock) :=
      readArray_eq_ok_iff.mpr ⟨hlen, hlast⟩
    simp only [MatchData.fromSlice, Outcome.ensure, not_lt.mpr hlen, not_false_iff, hamount',
      hrate', hlast', if_true, Outcome.ok_bind, u128FromLeBytes_u128ToLeBytes,
      u64FromLeBytes_u64ToLeBytes]

/-! ## Args of the right length decode -/

/-- Whatever 36 bytes are an out point. -/
theorem OutPoint.exists_fromSlice_eq_ok {bs : Bytes} (h : bs.length = channelOutpointLen) :
    ∃ v, OutPoint.fromSlice bs = .ok v := by
  have hhash : 0 + 32 ≤ bs.length := by simp [h]
  have hindex : 32 + 4 ≤ bs.length := by simp [h]
  refine ⟨⟨window bs 0 32 hhash, u32FromLeBytes (window bs 32 4 hindex)⟩, ?_⟩
  rw [fromSlice_eq_ok_iff, toBytes, Vector.toList_append, eq_append_toList_iff,
    u32ToLeBytes_u32FromLeBytes, toList_window, toList_window]
  exact ⟨h, rfl, rfl⟩

/-- Whatever 65 bytes are the args of an Order, so a length check on a lock is as good as
decoding it. -/
theorem OrderArgs.exists_fromSlice_eq_ok {bs : Bytes} (h : bs.length = orderArgsLen) :
    ∃ v, OrderArgs.fromSlice bs = .ok v := by
  have hpubkey : 0 + 33 ≤ bs.length := by simp [h]
  have hbuyer : 33 + 32 ≤ bs.length := by simp [h]
  refine ⟨⟨⟨window bs 0 33 hpubkey⟩, window bs 33 32 hbuyer⟩, ?_⟩
  rw [fromSlice_eq_ok_iff, toBytes, CompressedPubkey.toBytes, Vector.toList_append,
    eq_append_toList_iff, toList_window, toList_window]
  exact ⟨h, rfl, rfl⟩

/-- Whatever 133 bytes are the args of a Match.  The three windows are taken one by one. -/
theorem MatchArgs.exists_fromSlice_eq_ok {bs : Bytes} (h : bs.length = matchArgsLen) :
    ∃ v, MatchArgs.fromSlice bs = .ok v := by
  obtain ⟨orderArgs, horder⟩ :=
    OrderArgs.exists_fromSlice_eq_ok (show (bs.take 65).length = orderArgsLen by simp [h])
  obtain ⟨channel, hchannel⟩ :=
    OutPoint.exists_fromSlice_eq_ok
      (show ((bs.drop 65).take 36).length = channelOutpointLen by simp [h])
  have hseller : 101 + 32 ≤ bs.length := by simp [h]
  refine ⟨⟨orderArgs, channel, window bs 101 32 hseller⟩, ?_⟩
  rw [fromSlice_eq_ok_iff, toBytes, Vector.toList_append, Vector.toList_append,
    eq_append₃_toList_iff]
  refine ⟨h, OrderArgs.fromSlice_eq_ok_iff.mp horder, OutPoint.fromSlice_eq_ok_iff.mp hchannel, ?_⟩
  exact (toList_window bs 101 32 hseller).symm

/-- Whatever data of 32 bytes or more is that of a Match; there is no value the layout
excludes. -/
theorem MatchData.exists_fromSlice_eq_ok {bs : Bytes} (h : matchDataLen ≤ bs.length) :
    ∃ v, MatchData.fromSlice bs = .ok v := by
  have hlen : 32 ≤ bs.length := h
  have hamount : 0 + 16 ≤ bs.length := by omega
  have hrate : 16 + 8 ≤ bs.length := by omega
  have hlast : 24 + 8 ≤ bs.length := by omega
  refine ⟨⟨u128FromLeBytes (window bs 0 16 hamount), u64FromLeBytes (window bs 16 8 hrate),
    u64FromLeBytes (window bs 24 8 hlast)⟩, ?_⟩
  rw [fromSlice_eq_ok_iff, toBytes, Vector.toList_append, Vector.toList_append,
    eq_append₃_toList_iff]
  simp only [List.length_take, Nat.min_eq_left h, List.take_take, List.drop_take,
    u128ToLeBytes_u128FromLeBytes, u64ToLeBytes_u64FromLeBytes, toList_window]
  exact ⟨h, trivial, rfl, rfl, rfl⟩

/-! ## The codecs -/

def OutPoint.codec : Codec String OutPoint Bytes := ⟨fromSlice, fun v => v.toBytes.toList⟩

def CompressedPubkey.codec : Codec String CompressedPubkey Bytes :=
  ⟨fromSlice, fun v => v.toBytes.toList⟩

def OrderArgs.codec : Codec String OrderArgs Bytes := ⟨fromSlice, fun v => v.toBytes.toList⟩

def OrderData.codec : Codec String OrderData Bytes := ⟨fromSlice, fun v => v.toBytes.toList⟩

def MatchArgs.codec : Codec String MatchArgs Bytes := ⟨fromSlice, fun v => v.toBytes.toList⟩

def MatchData.codec : Codec String MatchData Bytes := ⟨fromSlice, fun v => v.toBytes.toList⟩

/-- An out point and its 36 bytes determine each other. -/
theorem OutPoint.codec_exact : OutPoint.codec.Exact := by
  intro b v
  rw [codec, fromSlice_eq_ok_iff]

theorem CompressedPubkey.codec_exact : CompressedPubkey.codec.Exact := by
  intro b v
  rw [codec, fromSlice_eq_ok_iff]

theorem OrderArgs.codec_exact : OrderArgs.codec.Exact := by
  intro b v
  rw [codec, fromSlice_eq_ok_iff]

theorem OrderData.codec_exact : OrderData.codec.Exact := by
  intro b v
  rw [codec, fromSlice_eq_ok_iff]

theorem MatchArgs.codec_exact : MatchArgs.codec.Exact := by
  intro b v
  rw [codec, fromSlice_eq_ok_iff]

/-- The data of a Match survives its bytes.  The converse fails, as the reader also takes longer
strings, and this is all that can be said of the layout. -/
theorem MatchData.codec_lossless : MatchData.codec.Lossless := by
  intro v
  simp only [codec, fromSlice_eq_ok_iff, Vector.length_toList, le_refl, take_toList_self, and_self]

/-- Match data is canonical as long as there are no bytes left over. -/
theorem MatchData.canonicalAt_iff {b : Bytes} :
    MatchData.codec.CanonicalAt b ↔ b.length ≤ matchDataLen := by
  constructor
  · intro h
    by_contra hlong
    -- the first 32 bytes decode, so `b` does
    obtain ⟨v, hv⟩ := exists_fromSlice_eq_ok (Nat.le_of_not_le hlong)
    simp only [Codec.CanonicalAt, codec] at h
    have hlength := congrArg List.length (h v hv)
    rw [Vector.length_toList] at hlength
    exact hlong hlength.ge
  · intro hle v hv
    simp only [codec, fromSlice_eq_ok_iff, List.take_of_length_le hle] at hv ⊢
    exact hv.2.symm

end Opticrum
