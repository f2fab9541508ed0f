import Opticrum.Foundation.Outcome

/-!
# Codecs

A decoder next to an encoder.  The two can be inverse in one direction and not in
the other, so the directions have names of their own:

* `Codec.Lossless` — every value is read back from its encoding.
* `Codec.CanonicalAt b` — if the decoder accepts `b`, then `b` is the encoding of
  what it was decoded to; an input that is not canonical is a second encoding of
  some value.

`Codec.Exact` is both at once, in the form decoders are best specified in: one
equivalence that says which inputs are accepted and what they decode to.

The encoder is total and the decoder is checked code, so `decode` has an error type of its own
and may panic as well; a codec that is `Exact` does neither on the encodings, and accepts
nothing else.  `Lossless.encode_injective` is the first consequence of the first direction: no
two values share an encoding.  Nothing is asked of the two types, and in particular no length:
a layout of fixed size says so through the inputs that it accepts.
-/

namespace Rust

universe u v w

/-- A decoder, which may refuse its input, and an encoder. -/
structure Codec (ε : Type u) (α : Type v) (β : Type w) where
  decode : β → Outcome ε α
  encode : α → β

namespace Codec

variable {ε : Type u} {α : Type v} {β : Type w} {c : Codec ε α β}

/-- Every value is read back from its encoding. -/
def Lossless (c : Codec ε α β) : Prop := ∀ v, c.decode (c.encode v) = .ok v

/-- An accepted `b` is the encoding of what it decodes to. -/
def CanonicalAt (c : Codec ε α β) (b : β) : Prop := ∀ v, c.decode b = .ok v → c.encode v = b

/-- The accepted inputs are the encodings, and nothing else. -/
def Exact (c : Codec ε α β) : Prop := ∀ b v, c.decode b = .ok v ↔ b = c.encode v

/-- An exact codec loses nothing that it writes. -/
theorem Exact.lossless (h : c.Exact) : c.Lossless := fun v => (h _ v).mpr rfl

/-- And accepts no string but the one it would write. -/
theorem Exact.canonicalAt (h : c.Exact) (b : β) : c.CanonicalAt b :=
  fun v hv => ((h b v).mp hv).symm

/-- What is read back is not confused with anything else. -/
theorem Lossless.encode_injective (h : c.Lossless) : Function.Injective c.encode := by
  intro v w hvw
  have hv := h v
  rw [hvw, h w] at hv
  exact (Except.ok.inj hv).symm

end Codec

end Rust
