/-!
# Sharing out a growing accumulator

Members hold stakes in a common pool.  The pool keeps, to a fixed scale, what
one unit of stake has earned since the beginning; a member who is settled is
paid what its stake has earned beyond a debt, and the debt is moved up to what
the remaining stake has earned.  Earnings are rounded down, so each settlement
shifts less than one unit between the members and the pool.  `Tally` follows
the totals of such a pool, and the two bounds below limit how far the payments
can run ahead of what was credited, and how far they can fall behind.
-/

namespace CasperContracts.Basis

/-- The totals of a pool and counts of its settlements. -/
structure Tally where
  /-- what one unit of stake has earned, times the scale -/
  acc : Nat
  staked : Nat
  debt : Nat
  paid : Nat
  /-- the growth of the accumulator times the stake it was shared among -/
  credited : Nat
  /-- settlements that left a stake behind -/
  kept : Nat
  /-- settlements of an existing stake -/
  closed : Nat

namespace Tally

def earned (scale acc stake : Nat) : Nat :=
  stake * acc / scale

structure Credit (growth : Nat) (tally tally' : Tally) : Prop where
  acc : tally'.acc = tally.acc + growth
  staked : tally'.staked = tally.staked
  debt : tally'.debt = tally.debt
  paid : tally'.paid = tally.paid
  credited : tally'.credited = tally.credited + growth * tally.staked
  kept : tally'.kept = tally.kept
  closed : tally'.closed = tally.closed

/-- A member is paid what it is owed, and its stake changes. -/
structure Settle (scale : Nat) (tally tally' : Tally) : Prop where
  acc : tally'.acc = tally.acc
  credited : tally'.credited = tally.credited
  exchange : ∃ stake debt stake' pay,
    earned scale tally.acc stake = pay + debt ∧
    tally'.staked + stake = tally.staked + stake' ∧
    tally'.debt + debt = tally.debt + earned scale tally.acc stake' ∧
    tally'.paid = tally.paid + pay ∧
    tally'.kept = tally.kept + (if stake' = 0 then 0 else 1) ∧
    tally'.closed = tally.closed + (if stake = 0 then 0 else 1)

/-- A member leaves without being paid. -/
structure Leave (scale : Nat) (tally tally' : Tally) : Prop where
  acc : tally'.acc = tally.acc
  paid : tally'.paid = tally.paid
  credited : tally'.credited = tally.credited
  kept : tally'.kept = tally.kept
  exchange : ∃ stake debt,
    debt ≤ earned scale tally.acc stake ∧
    tally.staked = tally'.staked + stake ∧
    tally.debt = tally'.debt + debt

/-- What has been paid and what the stakes hold is covered by what was credited,
up to the rounding of the debts in place. -/
def Covered (scale : Nat) (tally : Tally) : Prop :=
  scale * tally.paid + tally.acc * tally.staked ≤
    scale * tally.debt + tally.credited + (scale - 1) * tally.kept

/-- What was credited has been paid or is held by the stakes, up to the rounding
of the payments made. -/
def Distributed (scale : Nat) (tally : Tally) : Prop :=
  scale * tally.debt + tally.credited ≤
    scale * tally.paid + tally.acc * tally.staked + (scale - 1) * tally.closed

theorem scale_mul_earned_le (scale acc stake : Nat) :
    scale * earned scale acc stake ≤ acc * stake := by
  rw [Nat.mul_comm acc stake]
  exact Nat.mul_div_le _ _

/-- The rounding of one stake, nothing when there is no stake. -/
theorem le_scale_mul_earned {scale : Nat} (positive : 0 < scale) (acc stake : Nat) :
    acc * stake ≤
      scale * earned scale acc stake + (scale - 1) * (if stake = 0 then 0 else 1) := by
  by_cases none : stake = 0
  · simp [none]
  · have division := Nat.div_add_mod (stake * acc) scale
    have small := Nat.mod_lt (stake * acc) positive
    rw [if_neg none, Nat.mul_comm acc stake, earned]
    omega

variable {scale : Nat} {tally tally' : Tally}

theorem Credit.covered {growth : Nat} (credit : Credit growth tally tally')
    (covered : Covered scale tally) : Covered scale tally' := by
  unfold Covered at covered ⊢
  rw [credit.paid, credit.acc, credit.staked, credit.debt, credit.credited, credit.kept,
    Nat.add_mul]
  omega

theorem Credit.distributed {growth : Nat} (credit : Credit growth tally tally')
    (distributed : Distributed scale tally) : Distributed scale tally' := by
  unfold Distributed at distributed ⊢
  rw [credit.paid, credit.acc, credit.staked, credit.debt, credit.credited,
    credit.closed, Nat.add_mul]
  omega

/-- A settlement moves the balance of the pool by the rounding of the new stake
less the rounding of the old one. -/
theorem Settle.covered (positive : 0 < scale) (settle : Settle scale tally tally')
    (covered : Covered scale tally) : Covered scale tally' := by
  obtain ⟨stake, debt, stake', pay, owed, staked, debts, paid, kept, -⟩ := settle.exchange
  have oldRounding := scale_mul_earned_le scale tally.acc stake
  have newRounding := le_scale_mul_earned positive tally.acc stake'
  unfold Covered at covered ⊢
  rw [settle.acc, settle.credited, paid, kept]
  rw [owed] at oldRounding
  have stakes : tally.acc * tally'.staked + tally.acc * stake =
      tally.acc * tally.staked + tally.acc * stake' := by
    rw [← Nat.mul_add, staked, Nat.mul_add]
  have debtsScaled : scale * tally'.debt + scale * debt =
      scale * tally.debt + scale * earned scale tally.acc stake' := by
    rw [← Nat.mul_add, debts, Nat.mul_add]
  simp only [Nat.mul_add] at oldRounding ⊢
  omega

theorem Settle.distributed (positive : 0 < scale) (settle : Settle scale tally tally')
    (distributed : Distributed scale tally) : Distributed scale tally' := by
  obtain ⟨stake, debt, stake', pay, owed, staked, debts, paid, -, closed⟩ :=
    settle.exchange
  have oldRounding := le_scale_mul_earned positive tally.acc stake
  have newRounding := scale_mul_earned_le scale tally.acc stake'
  unfold Distributed at distributed ⊢
  rw [settle.acc, settle.credited, paid, closed]
  rw [owed] at oldRounding
  have stakes : tally.acc * tally'.staked + tally.acc * stake =
      tally.acc * tally.staked + tally.acc * stake' := by
    rw [← Nat.mul_add, staked, Nat.mul_add]
  have debtsScaled : scale * tally'.debt + scale * debt =
      scale * tally.debt + scale * earned scale tally.acc stake' := by
    rw [← Nat.mul_add, debts, Nat.mul_add]
  simp only [Nat.mul_add] at oldRounding ⊢
  omega

theorem Leave.covered (leave : Leave scale tally tally')
    (covered : Covered scale tally) : Covered scale tally' := by
  obtain ⟨stake, debt, within, staked, debts⟩ := leave.exchange
  have rounding := scale_mul_earned_le scale tally.acc stake
  have owed := Nat.mul_le_mul_left scale within
  unfold Covered at covered ⊢
  rw [leave.acc, leave.paid, leave.credited, leave.kept]
  rw [staked, debts, Nat.mul_add, Nat.mul_add] at covered
  omega

/-- Payments exceed what was credited by less than one unit for each settlement
that left a stake behind. -/
theorem Covered.paid_le (covered : Covered scale tally)
    (debts : scale * tally.debt ≤ tally.acc * tally.staked) :
    scale * tally.paid ≤ tally.credited + (scale - 1) * tally.kept := by
  unfold Covered at covered
  omega

/-- Once no stake is left, payments fall short of what was credited by less than
one unit for each settlement of a stake. -/
theorem Distributed.credited_le (distributed : Distributed scale tally)
    (empty : tally.staked = 0) :
    tally.credited ≤ scale * tally.paid + (scale - 1) * tally.closed := by
  unfold Distributed at distributed
  rw [empty, Nat.mul_zero] at distributed
  omega

end Tally

end CasperContracts.Basis
