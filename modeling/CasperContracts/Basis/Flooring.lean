import Mathlib.Algebra.BigOperators.Group.List.Basic
import Mathlib.Data.Nat.Basic
import Mathlib.Tactic.Ring

/-!
# Sums of rounded parts

A part of a number is worth `part * factor / divisor`, rounded down.  What the parts
are worth falls short of the whole by their remainders, that is, by less than one for
each part.
-/

namespace CasperContracts.Basis

variable {factor divisor : Nat} {parts : List Nat}

theorem sum_rounded_le (factor divisor : Nat) (parts : List Nat) :
    (parts.map fun part => part * factor / divisor).sum ≤ parts.sum * factor / divisor := by
  induction parts with
  | nil => simp
  | cons part parts ih =>
      rw [List.map_cons, List.sum_cons, List.sum_cons, Nat.add_mul]
      exact le_trans (Nat.add_le_add_left ih _) Nat.div_add_div_le_add_div

theorem sum_rounded_add_sum_mod (factor divisor : Nat) (parts : List Nat) :
    divisor * (parts.map fun part => part * factor / divisor).sum +
      (parts.map fun part => part * factor % divisor).sum = parts.sum * factor := by
  induction parts with
  | nil => simp
  | cons part parts ih =>
      have whole := Nat.div_add_mod (part * factor) divisor
      simp only [List.map_cons, List.sum_cons, Nat.mul_add, Nat.add_mul]
      omega

theorem sum_mod_le (positive : 0 < divisor) (factor : Nat) (parts : List Nat) :
    (parts.map fun part => part * factor % divisor).sum ≤ parts.length * (divisor - 1) := by
  induction parts with
  | nil => simp
  | cons part parts ih =>
      have small := Nat.mod_lt (part * factor) positive
      rw [List.map_cons, List.sum_cons, List.length_cons, Nat.succ_mul]
      omega

/-- The parts together lose less than their number. -/
theorem rounded_sum_le (positive : 0 < divisor) (factor : Nat) (some : parts ≠ []) :
    parts.sum * factor / divisor ≤
      (parts.map fun part => part * factor / divisor).sum + (parts.length - 1) := by
  have count : 0 < parts.length := List.length_pos_iff.mpr some
  let rounded := (parts.map fun part => part * factor / divisor).sum
  rw [← Nat.lt_succ_iff, Nat.div_lt_iff_lt_mul positive]
  calc parts.sum * factor ≤ divisor * rounded + parts.length * (divisor - 1) := by
        rw [← sum_rounded_add_sum_mod factor divisor parts]
        exact Nat.add_le_add_left (sum_mod_le positive factor parts) _
    _ < divisor * rounded + parts.length * divisor :=
        Nat.add_lt_add_left (Nat.mul_lt_mul_of_pos_left (by omega) count) _
    _ = (rounded + (parts.length - 1)).succ * divisor := by
        rw [Nat.succ_eq_add_one, Nat.add_assoc, Nat.sub_add_cancel count]
        ring

end CasperContracts.Basis
