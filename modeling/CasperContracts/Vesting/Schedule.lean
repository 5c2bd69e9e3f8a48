import CasperContracts.Vesting.Vest

/-!
# The two loops over schedules

`lock` divides an amount into equal schedules, and `claim` adds up and zeroes
those that are due.  Both are described by what they do to the sum of the
amounts that remain.
-/

namespace CasperContracts.Vesting

open CasperContracts.Basis Host

def remaining (schedules : List LockSchedule) : Nat :=
  (schedules.map fun s => s.amount.toNat).sum

/-- A schedule after a claim has seen it. -/
def LockSchedule.claimed (timestamp : UInt64) (s : LockSchedule) : LockSchedule :=
  if timestamp ≥ s.release then { s with amount := U256.zero } else s

section Remaining

variable {timestamp : UInt64} {s : LockSchedule} {schedules : List LockSchedule}

@[simp] theorem remaining_cons :
    remaining (s :: schedules) = s.amount.toNat + remaining schedules := by
  simp [remaining]

theorem remaining_eq_zero : remaining schedules = 0 ↔ ∀ s ∈ schedules, s.amount.toNat = 0 := by
  simp [remaining, List.sum_eq_zero_iff]

@[simp] theorem claimed_release : (s.claimed timestamp).release = s.release := by
  unfold LockSchedule.claimed
  split <;> rfl

theorem claimed_of_due (isDue : s.release ≤ timestamp) :
    (s.claimed timestamp).amount = U256.zero := by
  simp [LockSchedule.claimed, isDue]

theorem claimed_of_not_due (notDue : timestamp < s.release) : s.claimed timestamp = s := by
  simp [LockSchedule.claimed, UInt64.not_le.mpr notDue]

theorem not_due_of_claimed (left : (s.claimed timestamp).amount.toNat ≠ 0) :
    timestamp < s.release := by
  rw [← UInt64.not_le]
  intro isDue
  rw [claimed_of_due isDue] at left
  exact left rfl

theorem remaining_claimed_of_due (allDue : ∀ s ∈ schedules, s.release ≤ timestamp) :
    remaining (schedules.map (LockSchedule.claimed timestamp)) = 0 := by
  rw [remaining_eq_zero]
  intro s member
  obtain ⟨s, inside, rfl⟩ := List.mem_map.mp member
  rw [claimed_of_due (allDue s inside)]
  rfl

theorem remaining_claimed_le :
    remaining (schedules.map (LockSchedule.claimed timestamp)) ≤ remaining schedules := by
  induction schedules with
  | nil => exact le_refl _
  | cons s schedules ih =>
      have single : (s.claimed timestamp).amount.toNat ≤ s.amount.toNat := by
        by_cases isDue : s.release ≤ timestamp
        · rw [claimed_of_due isDue]
          exact Nat.zero_le _
        · rw [claimed_of_not_due (UInt64.not_le.mp isDue)]
      rw [List.map_cons, remaining_cons, remaining_cons]
      exact Nat.add_le_add single ih

theorem remaining_set {index : Nat} {newRelease : UInt64} (here : schedules[index]? = some s) :
    remaining (schedules.set index { s with release := newRelease }) =
      remaining schedules := by
  obtain ⟨inside, rfl⟩ := List.getElem?_eq_some_iff.mp here
  have insideMap : index < (schedules.map fun s => s.amount.toNat).length := by
    rwa [List.length_map]
  have sameAmount := List.set_getElem_self insideMap
  rw [List.getElem_map] at sameAmount
  rw [remaining, List.map_set, sameAmount, remaining]

end Remaining

/-! ## Release times -/

/-- No release time has become earlier. -/
def Later (schedules schedules' : List LockSchedule) : Prop :=
  List.Forall₂ (fun s s' => s.release ≤ s'.release) schedules schedules'

section Later

variable {schedules schedules' schedules'' : List LockSchedule} {s : LockSchedule}

theorem Later.refl (schedules : List LockSchedule) : Later schedules schedules :=
  List.forall₂_same.mpr fun _ _ => UInt64.le_refl _

theorem Later.trans (first : Later schedules schedules')
    (second : Later schedules' schedules'') : Later schedules schedules'' := by
  induction first generalizing schedules'' with
  | nil => exact second
  | cons le _ ih =>
      cases second with
      | cons le' rest => exact .cons (UInt64.le_trans le le') (ih rest)

theorem Later.claimed (timestamp : UInt64) (schedules : List LockSchedule) :
    Later schedules (schedules.map (LockSchedule.claimed timestamp)) :=
  List.forall₂_map_right_iff.mpr (List.forall₂_same.mpr fun _ _ => by simp)

theorem Later.set {index : Nat} {newRelease : UInt64} (here : schedules[index]? = some s)
    (later : s.release ≤ newRelease) :
    Later schedules (schedules.set index { s with release := newRelease }) := by
  induction schedules generalizing index with
  | nil => simp at here
  | cons head schedules ih =>
      cases index with
      | zero =>
          cases here
          exact .cons later (Later.refl schedules)
      | succ index => exact .cons (UInt64.le_refl _) (ih here)

end Later

/-! ## The loop of `claim` -/

section Claim

variable {timestamp : UInt64} {schedules after : List LockSchedule} {amount total : U256}

theorem claimSchedules_eq_some
    (loop : claimSchedules timestamp schedules amount = some (total, after)) :
    after = schedules.map (LockSchedule.claimed timestamp) ∧
      total.toNat + remaining after = amount.toNat + remaining schedules := by
  induction schedules generalizing amount after with
  | nil =>
      simp only [claimSchedules, Option.some.injEq, Prod.mk.injEq] at loop
      obtain ⟨rfl, rfl⟩ := loop
      exact ⟨rfl, rfl⟩
  | cons s schedules ih =>
      by_cases isDue : s.release ≤ timestamp
      · simp only [claimSchedules, ge_iff_le, isDue, if_true] at loop
        obtain ⟨sum, added, rest⟩ := Option.bind_eq_some_iff.mp loop
        obtain ⟨⟨total', after'⟩, later, same⟩ := Option.bind_eq_some_iff.mp rest
        simp only [Option.pure_def, Option.some.injEq, Prod.mk.injEq] at same
        obtain ⟨rfl, rfl⟩ := same
        obtain ⟨rfl, sums⟩ := ih later
        have zeroed : s.claimed timestamp = { s with amount := U256.zero } := by
          simp [LockSchedule.claimed, isDue]
        refine ⟨by rw [List.map_cons, zeroed], ?_⟩
        rw [U256.checkedAdd_eq_some] at added
        simp only [remaining_cons, U256.toNat_zero]
        omega
      · simp only [claimSchedules, ge_iff_le, isDue, if_false] at loop
        obtain ⟨⟨total', after'⟩, later, same⟩ := Option.bind_eq_some_iff.mp loop
        simp only [Option.pure_def, Option.some.injEq, Prod.mk.injEq] at same
        obtain ⟨rfl, rfl⟩ := same
        obtain ⟨rfl, sums⟩ := ih later
        have kept := claimed_of_not_due (UInt64.not_le.mp isDue)
        refine ⟨by rw [List.map_cons, kept], ?_⟩
        simp only [remaining_cons]
        omega

/-- The loop has a result when the amounts fit in a word together. -/
theorem exists_claimSchedules (fits : amount.toNat + remaining schedules < 2 ^ 256) :
    ∃ result, claimSchedules timestamp schedules amount = some result := by
  induction schedules generalizing amount with
  | nil => exact ⟨_, rfl⟩
  | cons s schedules ih =>
      rw [remaining_cons] at fits
      by_cases isDue : s.release ≤ timestamp
      · have fitsFirst : amount.toNat + s.amount.toNat < 2 ^ 256 := by omega
        obtain ⟨sum, added, value⟩ := U256.exists_checkedAdd fitsFirst
        have fitsRest : sum.toNat + remaining schedules < 2 ^ 256 := by omega
        obtain ⟨result, later⟩ := ih fitsRest
        exact ⟨_, by simp only [claimSchedules, ge_iff_le, isDue, if_true, added,
          Option.bind_eq_bind, Option.bind_some, later]; rfl⟩
      · have fitsRest : amount.toNat + remaining schedules < 2 ^ 256 := by omega
        obtain ⟨result, later⟩ := ih fitsRest
        exact ⟨_, by simp only [claimSchedules, ge_iff_le, isDue, if_false,
          Option.bind_eq_bind, later]; rfl⟩

/-- The count at the end of `claim` finds whether anything remains. -/
theorem length_eq_countP_iff :
    schedules.length = (schedules.countP fun s => s.amount.isZero) ↔
      remaining schedules = 0 := by
  rw [eq_comm, List.countP_eq_length, remaining_eq_zero]
  simp

end Claim

/-! ## The loop of `lock` -/

theorem toNat_checkedAdd {a b c : UInt64} (sum : checkedAdd a b = some c) :
    c.toNat = a.toNat + b.toNat := by
  unfold checkedAdd at sum
  split at sum
  · rename_i fits
    cases sum
    rw [UInt64.toNat_add, Nat.mod_eq_of_lt fits]
  · cases sum

theorem toNat_checkedMul {a b c : UInt64} (product : checkedMul a b = some c) :
    c.toNat = a.toNat * b.toNat := by
  unfold checkedMul at product
  split at product
  · rename_i fits
    cases product
    rw [UInt64.toNat_mul, Nat.mod_eq_of_lt fits]
  · cases product

section Lock

variable {firstUnlock timeBetweenLocks : UInt64} {cliffAmount : U256}
  {numberOfLocks : UInt32} {schedules : List LockSchedule}

theorem length_newSchedules
    (loop : newSchedules firstUnlock timeBetweenLocks cliffAmount numberOfLocks =
      .ok schedules) : schedules.length = numberOfLocks.toNat := by
  have rounds := (mapM_eq_ok.mp loop).length_eq
  rw [← rounds, List.length_range]

theorem amount_newSchedules
    (loop : newSchedules firstUnlock timeBetweenLocks cliffAmount numberOfLocks =
      .ok schedules) :
    ∀ s ∈ schedules, s.amount.toNat = cliffAmount.toNat / numberOfLocks.toNat := by
  intro s member
  obtain ⟨len, rfl⟩ := List.mem_iff_get.mp member
  obtain ⟨sameLength, rounds⟩ := List.forall₂_iff_get.mp (mapM_eq_ok.mp loop)
  have round := rounds len.val (by rw [sameLength]; exact len.isLt) len.isLt
  simp only [bind_eq_ok, orPanic_eq_ok, pure_eq_ok, U256.checkedDiv_eq_some] at round
  obtain ⟨offset, -, amount, ⟨-, quotient⟩, same⟩ := round
  rw [← congrArg LockSchedule.amount same, quotient]
  simp

/-- The parts add up to the whole but for the remainder of the division. -/
theorem remaining_newSchedules
    (loop : newSchedules firstUnlock timeBetweenLocks cliffAmount numberOfLocks =
      .ok schedules) :
    remaining schedules + cliffAmount.toNat % numberOfLocks.toNat = cliffAmount.toNat := by
  have parts : remaining schedules =
      schedules.length * (cliffAmount.toNat / numberOfLocks.toNat) := by
    rw [remaining, List.sum_eq_card_nsmul _ (cliffAmount.toNat / numberOfLocks.toNat),
      List.length_map, nsmul_eq_mul, Nat.cast_id]
    intro part member
    obtain ⟨s, inside, rfl⟩ := List.mem_map.mp member
    exact amount_newSchedules loop s inside
  rw [parts, length_newSchedules loop]
  exact Nat.div_add_mod _ _

theorem remaining_newSchedules_le
    (loop : newSchedules firstUnlock timeBetweenLocks cliffAmount numberOfLocks =
      .ok schedules) : remaining schedules ≤ cliffAmount.toNat := by
  rw [← remaining_newSchedules loop]
  exact Nat.le_add_right _ _

/-- A release time is the first one and a multiple of the gap, modulo the width of
the word: the product is checked, the sum is not. -/
theorem release_newSchedules
    (loop : newSchedules firstUnlock timeBetweenLocks cliffAmount numberOfLocks =
      .ok schedules) {i : Nat} {s : LockSchedule} (here : schedules[i]? = some s) :
    s.release.toNat = (firstUnlock.toNat + i * timeBetweenLocks.toNat) % 2 ^ 64 := by
  obtain ⟨inside, rfl⟩ := List.getElem?_eq_some_iff.mp here
  have counted : i < 2 ^ 32 := by
    rw [length_newSchedules loop] at inside
    exact lt_trans inside numberOfLocks.toNat_lt
  obtain ⟨sameLength, rounds⟩ := List.forall₂_iff_get.mp (mapM_eq_ok.mp loop)
  have round := rounds i (by rw [sameLength]; exact inside) inside
  simp only [bind_eq_ok, pure_eq_ok, unwrapOrRevert, unwrapOrRevertWith_eq_ok,
    List.get_eq_getElem, List.getElem_range] at round
  obtain ⟨offset, product, amount, -, same⟩ := round
  have exact : offset.toNat = i * timeBetweenLocks.toNat := by
    rw [toNat_checkedMul product, Nat.mul_comm]
    congr 1
    exact UInt64.toNat_ofNat_of_lt' (lt_trans counted (by decide))
  rw [← congrArg LockSchedule.release same, UInt64.toNat_add, exact]

end Lock

end CasperContracts.Vesting
