import Mathlib.Data.List.Basic

/-!
# Strings as bytes

`String::from_utf8`, on lists of bytes.  A string is what its own bytes decode to.

The byte array of a string is read by a loop with an accumulator; `toList_eq` replaces the loop
by the list of the underlying array, after which the library's own round trip applies.
-/

namespace Rust

/-- `String::from_utf8`, its error dropped. -/
def fromUtf8 (bytes : List UInt8) : Option String := String.fromUTF8? ⟨bytes.toArray⟩

/-- The loop that lists the bytes puts them in front of what it has read, in reverse. -/
theorem toList_loop (bs : ByteArray) (i : ℕ) (read : List UInt8) :
    ByteArray.toList.loop bs i read = read.reverse ++ bs.data.toList.drop i := by
  fun_induction ByteArray.toList.loop bs i read with
  | case1 i read h ih =>
      have hlt : i < bs.data.toList.length := by simpa using h
      rw [ih, List.reverse_cons, List.append_assoc, List.drop_eq_getElem_cons hlt]
      have hget : bs.get! i = bs.data.toList[i] := by
        obtain ⟨data⟩ := bs
        exact getElem!_pos data i h
      rw [hget, List.singleton_append]
  | case2 i read h =>
      have hle : bs.data.toList.length ≤ i := by simpa using h
      rw [List.drop_eq_nil_of_le hle, List.append_nil]

/-- So the list of a byte array is that of its contents. -/
theorem toList_eq (bs : ByteArray) : bs.toList = bs.data.toList :=
  toList_loop bs 0 []

/-- A string is decoded from its bytes. -/
theorem fromUtf8_toUTF8 (s : String) : fromUtf8 s.toUTF8.toList = some s := by
  rw [fromUtf8, toList_eq, Array.toArray_toList, String.toUTF8_eq_toByteArray, String.fromUTF8?,
    dif_pos s.isValidUTF8]
  rfl

/-- Only the empty string has no bytes. -/
theorem toUTF8_eq_nil_iff {s : String} : s.toUTF8.toList = [] ↔ s = "" := by
  have hempty : "".toUTF8.toList = [] := toList_eq _
  constructor
  · intro h
    have hdecoded : some s = some "" := by
      rw [← fromUtf8_toUTF8 s, ← fromUtf8_toUTF8 "", h, hempty]
    exact Option.some.inj hdecoded
  · rintro rfl
    exact hempty

end Rust
