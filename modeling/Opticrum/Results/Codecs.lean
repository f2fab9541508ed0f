import Opticrum.Protocol

/-!
# The cell codecs

Six data layouts, each with a decoder and an encoder.  Five of the decoders ask
for the exact length and are inverse to their encoders.  `MatchData.fromSlice`
asks for *at least* 32 bytes: every string that is longer decodes, and is then not
the encoding of its value.

`codecs_inverse_iff` says so for every layout and every byte string.

The two directions differ in what they need.  That a value is read back from its encoding holds
for all six.  That an accepted string is an encoding fails only where the decoder leaves bytes
unread, and the failure is visible in the length alone.
-/

namespace Opticrum

open Rust Ckb

/-- The data layouts of the protocol. -/
inductive DataLayout where
  | outPoint
  | compressedPubkey
  | orderArgs
  | orderData
  | matchArgs
  | matchData
  deriving DecidableEq, Repr

/-- Decoding inverts encoding for every value of the layout, and `b`, if the layout
accepts it, is the encoding of what it decodes to. -/
def DataLayout.InverseAt (b : Bytes) : DataLayout → Prop
  | .outPoint => OutPoint.codec.Lossless ∧ OutPoint.codec.CanonicalAt b
  | .compressedPubkey => CompressedPubkey.codec.Lossless ∧ CompressedPubkey.codec.CanonicalAt b
  | .orderArgs => OrderArgs.codec.Lossless ∧ OrderArgs.codec.CanonicalAt b
  | .orderData => OrderData.codec.Lossless ∧ OrderData.codec.CanonicalAt b
  | .matchArgs => MatchArgs.codec.Lossless ∧ MatchArgs.codec.CanonicalAt b
  | .matchData => MatchData.codec.Lossless ∧ MatchData.codec.CanonicalAt b

/-- **The codecs.** Decoder and encoder of every layout are inverse in both directions, at every
byte string, except for Match data with bytes left over.

Such data decodes, and encoding what it decodes to gives back its first 32 bytes only. -/
theorem codecs_inverse_iff (layout : DataLayout) (b : Bytes) :
    layout.InverseAt b ↔ ¬ (layout = .matchData ∧ matchDataLen < b.length) := by
  have hexact : ∀ {α : Type} {c : Codec String α Bytes} {l : DataLayout}, c.Exact →
      l ≠ .matchData →
        (c.Lossless ∧ c.CanonicalAt b ↔ ¬ (l = .matchData ∧ matchDataLen < b.length)) := by
    intro α c l hc hl
    exact iff_of_true ⟨hc.lossless, hc.canonicalAt b⟩ fun h => hl h.1
  cases layout with
  | outPoint => exact hexact OutPoint.codec_exact (by decide)
  | compressedPubkey => exact hexact CompressedPubkey.codec_exact (by decide)
  | orderArgs => exact hexact OrderArgs.codec_exact (by decide)
  | orderData => exact hexact OrderData.codec_exact (by decide)
  | matchArgs => exact hexact MatchArgs.codec_exact (by decide)
  | matchData =>
      rw [DataLayout.InverseAt, MatchData.canonicalAt_iff]
      simp only [MatchData.codec_lossless, true_and, not_lt]

/-- Thirty-three zero bytes decode as Match data, whose encoding has thirty-two. -/
theorem overlong_matchData :
    MatchData.fromSlice (List.replicate 33 0) = .ok ⟨0, 0, 0⟩ ∧
      ¬ DataLayout.matchData.InverseAt (List.replicate 33 0) := by
  refine ⟨rfl, fun h => ?_⟩
  exact absurd (MatchData.canonicalAt_iff.mp h.2) (by decide)

end Opticrum
