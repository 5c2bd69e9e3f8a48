import Mathlib.Data.List.Basic
import Mathlib.Data.Nat.Basic

/-!
# Fields of a fixed width

A field format of a fixed width writes exactly the strings of that width.  Such
a field can be cut off the front of any longer string, and a string whose length
is a multiple of the width is a sequence of fields.
-/

namespace CasperContracts.Basis

/-- `encode` writes strings of one width, and all of them. -/
structure FixedWidth {α β : Type} (encode : α → List β) (width : Nat) : Prop where
  length : ∀ value, (encode value).length = width
  covers : ∀ string, string.length = width → ∃ value, encode value = string

namespace FixedWidth

variable {α β : Type} {encode : α → List β} {width : Nat} {string : List β}

/-- The first field of a string that is long enough, and the rest. -/
theorem cut (format : FixedWidth encode width) (long : width ≤ string.length) :
    ∃ value rest, string = encode value ++ rest ∧ rest.length = string.length - width := by
  obtain ⟨value, front⟩ := format.covers (string.take width) (List.length_take_of_le long)
  refine ⟨value, string.drop width, ?_, List.length_drop⟩
  rw [front, List.take_append_drop]

theorem exists_flatMap (format : FixedWidth encode width) {count : Nat}
    (length : string.length = count * width) :
    ∃ values : List α, values.flatMap encode = string := by
  induction count generalizing string with
  | zero =>
      have empty : string = [] := by
        apply List.eq_nil_of_length_eq_zero
        rw [length, Nat.zero_mul]
      exact ⟨[], empty.symm⟩
  | succ count ih =>
      rw [Nat.succ_mul] at length
      have long : width ≤ string.length := by
        rw [length]
        exact Nat.le_add_left _ _
      obtain ⟨value, rest, rfl, restLength⟩ := format.cut long
      have restCount : rest.length = count * width := by
        rw [restLength, length]
        exact Nat.add_sub_cancel _ _
      obtain ⟨values, rfl⟩ := ih restCount
      exact ⟨value :: values, List.flatMap_cons⟩

end FixedWidth

end CasperContracts.Basis
