import Mathlib.Data.List.Basic

/-!
# Positions in an expanded list

A list whose entries each expand to a list of items can be indexed in two ways:
by entry, and by item in the expansion.  `offset f l i` is where the items of
entry `i` start.

* `getElem?_offset` — the items of entry `i` sit from `offset f l i` on.
* `offset_of_singletons` — expansions of one item each leave the positions alone.
* `exists_entry_of_getElem?` — every position of the expansion belongs to an entry.

The second lemma is the case in which the two indices agree.  An index computed by entry, on a
list that is then read by item, is right where every entry expands to one item; an entry that
expands to none, or to several, shifts what is behind it.
-/

namespace Expansion

universe u v

variable {α : Type u} {β : Type v}

/-- The position in `l.flatMap f` where the items of entry `i` start. -/
def offset (f : α → List β) (l : List α) (i : ℕ) : ℕ := ((l.take i).flatMap f).length

@[simp] theorem offset_zero (f : α → List β) (l : List α) : offset f l 0 = 0 := rfl

/-- What is before the next element is one expansion more. -/
@[simp] theorem offset_cons_succ (f : α → List β) (a : α) (l : List α) (i : ℕ) :
    offset f (a :: l) (i + 1) = (f a).length + offset f l i := by
  simp [offset]

/-- Item `k` of entry `i` sits at `offset f l i + k`. -/
theorem getElem?_offset {f : α → List β} {l : List α} {i k : ℕ} {a : α} {b : β}
    (ha : l[i]? = some a) (hb : (f a)[k]? = some b) :
    (l.flatMap f)[offset f l i + k]? = some b := by
  induction l generalizing i with
  | nil => simp at ha
  | cons x l ih =>
      cases i with
      | zero =>
          obtain rfl : x = a := by simpa using ha
          have hk : k < (f x).length := (List.getElem?_eq_some_iff.mp hb).1
          rw [offset_zero, Nat.zero_add, List.flatMap_cons, List.getElem?_append_left hk, hb]
      | succ i =>
          rw [List.getElem?_cons_succ] at ha
          rw [offset_cons_succ, List.flatMap_cons, Nat.add_assoc,
            List.getElem?_append_right (Nat.le_add_right _ _), Nat.add_sub_cancel_left, ih ha]

/-- Where every entry expands to one item, the two indices are one. -/
theorem offset_of_singletons {f : α → List β} {l : List α} {i : ℕ}
    (hf : ∀ a ∈ l, (f a).length = 1) (hi : i ≤ l.length) : offset f l i = i := by
  induction l generalizing i with
  | nil =>
      rw [List.length_nil, Nat.le_zero] at hi
      rw [hi, offset_zero]
  | cons x l ih =>
      cases i with
      | zero => rfl
      | succ i =>
          have htail := ih (fun a ha => hf a (List.mem_cons_of_mem x ha))
            (Nat.le_of_succ_le_succ hi)
          rw [offset_cons_succ, hf x List.mem_cons_self, htail, Nat.add_comm]

/-- Every item of the expansion is an item of some entry. -/
theorem exists_entry_of_getElem? {f : α → List β} {l : List α} {p : ℕ} {b : β}
    (h : (l.flatMap f)[p]? = some b) :
    ∃ i k a, l[i]? = some a ∧ (f a)[k]? = some b ∧ p = offset f l i + k := by
  induction l generalizing p with
  | nil => simp at h
  | cons x l ih =>
      rw [List.flatMap_cons] at h
      by_cases hp : p < (f x).length
      · rw [List.getElem?_append_left hp] at h
        exact ⟨0, p, x, rfl, h, by simp⟩
      · rw [List.getElem?_append_right (Nat.le_of_not_lt hp)] at h
        obtain ⟨i, k, a, ha, hb, hk⟩ := ih h
        exact ⟨i + 1, k, a, by simpa using ha, hb, by rw [offset_cons_succ]; omega⟩

end Expansion
