import Opticrum.Calculator.FiberAddress

/-!
# An encoding of witnesses that round-trips

The encoding of witnesses is a parameter of what is proved about the Fiber address.
This is the encoding of CKB: a table, whose size and offsets come first, of three
fields that hold their bytes behind a length, or nothing.  What fits in 32 bits of
length is read back from it.

## Bounds

A table begins with its size and the offsets of its fields, each in four bytes.  The round trip
needs every one of them below 2³², and it suffices that the size is, as the offsets lie inside.
An empty witness is no bytes at all, from which no output type is read.
-/

namespace Opticrum.Molecule

open Rust Ckb

/-! ## The encoding -/

/-- `BytesOpt`: the length in four bytes, then the bytes; nothing for none. -/
def bytesOpt (bytes : Bytes) : Bytes :=
  if bytes = [] then [] else digitsLE 4 bytes.length ++ bytes

/-- The optional bytes in a field of a table. -/
def readBytesOpt (field : Bytes) : Except String (Option Bytes) :=
  if field = [] then .ok none
  else if valueLE (field.take 4) + 4 = field.length then .ok (some (field.drop 4))
  else .error "VerificationError"

/-- A table of three fields: its size and the offsets of the fields come first. -/
def table (lock inputType outputType : Bytes) : Bytes :=
  [16 + lock.length + inputType.length + outputType.length, 16, 16 + lock.length,
    16 + lock.length + inputType.length].flatMap (digitsLE 4) ++
      (lock ++ (inputType ++ outputType))

/-- An empty witness is not encoded. -/
def packed (w : WitnessEx) : Bytes :=
  if w.empty then [] else table (bytesOpt w.lock) (bytesOpt w.inputType) (bytesOpt w.outputType)

/-- The decoder checks the size, the number of fields and the order of the offsets. -/
def fromSlice (slice : Bytes) : Except String WitnessArgs :=
  let word (i : ℕ) := valueLE ((slice.drop (4 * i)).take 4)
  if slice.length < 16 ∨ word 0 ≠ slice.length ∨ word 1 ≠ 16 ∨ word 2 < word 1 ∨
      word 3 < word 2 ∨ word 0 < word 3 then .error "VerificationError"
  else do
    let lock ← readBytesOpt ((slice.take (word 2)).drop (word 1))
    let inputType ← readBytesOpt ((slice.take (word 3)).drop (word 2))
    let outputType ← readBytesOpt (slice.drop (word 3))
    .ok ⟨lock, inputType, outputType⟩

def codec : WitnessCodec := ⟨packed, fromSlice⟩

/-! ## What is read back -/

theorem readBytesOpt_bytesOpt {bytes : Bytes} (h : bytes.length < 2 ^ 32) :
    readBytesOpt (bytesOpt bytes) = .ok (if bytes = [] then none else some bytes) := by
  unfold bytesOpt readBytesOpt
  split
  · simp_all
  · next hne =>
    have hlength : valueLE (digitsLE 4 bytes.length) = bytes.length :=
      valueLE_digitsLE (by omega)
    have htake : (digitsLE 4 bytes.length ++ bytes).take 4 = digitsLE 4 bytes.length :=
      List.take_left' (length_digitsLE _ _)
    have hdrop : (digitsLE 4 bytes.length ++ bytes).drop 4 = bytes :=
      List.drop_left' (length_digitsLE _ _)
    rw [htake, hdrop, hlength, if_neg (by simp [hne]), if_pos (by simp [Nat.add_comm])]

/-- The words of a header are read back. -/
theorem word_header {words : List ℕ} (hwords : ∀ n ∈ words, n < 2 ^ 32) (body : Bytes) {i : ℕ}
    (hi : i < words.length) :
    valueLE (((words.flatMap (digitsLE 4) ++ body).drop (4 * i)).take 4) = words[i] := by
  induction words generalizing i with
  | nil => simp at hi
  | cons n words ih =>
      obtain ⟨hn, hwords⟩ := List.forall_mem_cons.mp hwords
      rw [List.flatMap_cons, List.append_assoc]
      cases i with
      | zero =>
          rw [Nat.mul_zero, List.drop_zero, List.take_left' (length_digitsLE _ _)]
          exact valueLE_digitsLE (by omega)
      | succ i =>
          have hdrop : (digitsLE 4 n ++ (words.flatMap (digitsLE 4) ++ body)).drop (4 * (i + 1)) =
              (words.flatMap (digitsLE 4) ++ body).drop (4 * i) := by
            rw [Nat.mul_succ, Nat.add_comm, ← List.drop_drop, List.drop_left' (length_digitsLE _ _)]
          rw [hdrop]
          exact ih hwords (by simpa using hi)

theorem length_bytesOpt_le (bytes : Bytes) : (bytesOpt bytes).length ≤ 4 + bytes.length := by
  unfold bytesOpt
  split
  · simp
  · simp

/-- The bytes between two offsets. -/
theorem window (front field rest : Bytes) :
    ((front ++ (field ++ rest)).take (front.length + field.length)).drop front.length = field := by
  rw [List.drop_take, List.drop_left, Nat.add_sub_cancel_left, List.take_left]

/-- The fields of a table whose size fits in four bytes are read back. -/
theorem fromSlice_table {lock inputType outputType : Bytes}
    {lock' inputType' outputType' : Option Bytes}
    (hfits : 16 + lock.length + inputType.length + outputType.length < 2 ^ 32)
    (hlock : readBytesOpt lock = .ok lock') (hinput : readBytesOpt inputType = .ok inputType')
    (houtput : readBytesOpt outputType = .ok outputType') :
    fromSlice (table lock inputType outputType) = .ok ⟨lock', inputType', outputType'⟩ := by
  have hwords : ∀ n ∈ [16 + lock.length + inputType.length + outputType.length, 16,
      16 + lock.length, 16 + lock.length + inputType.length], n < 2 ^ 32 := by
    simp only [List.forall_mem_cons]
    exact ⟨by omega, by omega, by omega, by omega, List.forall_mem_nil _⟩
  -- the header stays folded: the fields are found behind 16 bytes, whatever these are
  obtain ⟨header, hheader⟩ : ∃ header, header = List.flatMap (digitsLE 4)
    [16 + lock.length + inputType.length + outputType.length, 16, 16 + lock.length,
      16 + lock.length + inputType.length] := ⟨_, rfl⟩
  have hsize : header.length = 16 := by
    rw [hheader]
    simp
  have htable :
      table lock inputType outputType = header ++ (lock ++ (inputType ++ outputType)) := by
    rw [hheader]
    rfl
  have hword (i : ℕ) (hi : i < 4) := word_header hwords (lock ++ (inputType ++ outputType)) hi
  rw [← hheader, ← htable] at hword
  have hlength : (table lock inputType outputType).length =
      16 + lock.length + inputType.length + outputType.length := by
    simp only [htable, List.length_append, hsize]
    omega
  have hfirst : ((table lock inputType outputType).take (16 + lock.length)).drop 16 = lock := by
    rw [htable, ← hsize]
    exact window header lock (inputType ++ outputType)
  have hsecond : ((table lock inputType outputType).take
      (16 + lock.length + inputType.length)).drop (16 + lock.length) = inputType := by
    rw [htable, ← List.append_assoc, ← hsize, ← List.length_append]
    exact window (header ++ lock) inputType outputType
  have hthird : (table lock inputType outputType).drop (16 + lock.length + inputType.length) =
      outputType := by
    rw [htable, ← List.append_assoc, ← List.append_assoc, ← hsize, ← List.length_append,
      ← List.length_append, List.drop_left]
  -- the four words of the header, as the decoder reads them
  have hword₀ := hword 0 (by decide)
  have hword₁ := hword 1 (by decide)
  have hword₂ := hword 2 (by decide)
  have hword₃ := hword 3 (by decide)
  simp only [List.getElem_cons_zero, List.getElem_cons_succ] at hword₀ hword₁ hword₂ hword₃
  simp only [fromSlice, hword₀, hword₁, hword₂, hword₃, hlength, hfirst, hsecond, hthird, hlock,
    hinput, houtput]
  rw [if_neg (by omega)]
  rfl

/-- A witness that fits is read back. -/
theorem fromSlice_packed {w : WitnessEx} (hset : w.empty = false)
    (hfits : w.lock.length + w.inputType.length + w.outputType.length + 28 < 2 ^ 32) :
    fromSlice (packed w) = .ok ⟨if w.lock = [] then none else some w.lock,
      if w.inputType = [] then none else some w.inputType,
      if w.outputType = [] then none else some w.outputType⟩ := by
  have hlock := length_bytesOpt_le w.lock
  have hinput := length_bytesOpt_le w.inputType
  have houtput := length_bytesOpt_le w.outputType
  rw [packed, hset, if_neg Bool.false_ne_true]
  exact fromSlice_table (by omega) (readBytesOpt_bytesOpt (by omega))
    (readBytesOpt_bytesOpt (by omega)) (readBytesOpt_bytesOpt (by omega))

/-- The codec round-trips what fits. -/
theorem roundTrips {w : WitnessEx}
    (hfits : w.lock.length + w.inputType.length + w.outputType.length + 28 < 2 ^ 32) :
    codec.RoundTrips w := by
  intro hread
  cases hset : w.empty with
  | true =>
      rw [hset] at hread
      have hnone : w.outputType = [] := hread.resolve_left (by simp)
      simp [codec, WitnessCodec.outputType, packed, hset, hnone]
  | false =>
      have hslice := fromSlice_packed hset hfits
      have hne : packed w ≠ [] := by
        intro hnil
        rw [hnil] at hslice
        simp [fromSlice] at hslice
      simp only [codec, WitnessCodec.outputType, if_neg hne, hslice, Except.toOption,
        Option.bind_some]
      by_cases hnone : w.outputType = []
      · simp [hnone]
      · simp [hnone]

end Opticrum.Molecule
