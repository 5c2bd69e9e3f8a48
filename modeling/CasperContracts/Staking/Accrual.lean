import CasperContracts.Staking.Stake

/-!
# What `update_pool` does to a pool

`Accrual` lists the ways a pool can come out of `update_pool`: kept as it is,
moved to the current time without credit, or credited.  Everything later
proofs need about the update is derived from it.
-/

namespace CasperContracts.Staking

open CasperContracts.Basis Host

theorem getMax_toNat (a b : UInt64) : (getMax a b).toNat = max a.toNat b.toNat := by
  unfold getMax
  split
  · rename_i greater
    have := UInt64.lt_iff_toNat_lt.mp greater
    omega
  · rename_i notGreater
    have := UInt64.le_iff_toNat_le.mp (UInt64.not_lt.mp notGreater)
    omega

theorem getMin_toNat (a b : UInt64) : (getMin a b).toNat = min a.toNat b.toNat := by
  unfold getMin
  split
  · rename_i greater
    have := UInt64.lt_iff_toNat_lt.mp greater
    omega
  · rename_i notGreater
    have := UInt64.le_iff_toNat_le.mp (UInt64.not_lt.mp notGreater)
    omega

theorem toNat_sub_of_le {a b : UInt64} (le : b.toNat ≤ a.toNat) :
    (a - b).toNat = a.toNat - b.toNat :=
  UInt64.toNat_sub_of_le a b (UInt64.le_iff_toNat_le.mpr le)

/-- The fields of a pool that are set once, when it is created. -/
structure Terms where
  id : UInt64
  stakingToken : ContractHash
  rewardToken : ContractHash
  startTime : UInt64
  precision : UInt64
  owner : AccountHash
  totalReward : U256
  deriving DecidableEq

namespace StakePool

def terms (pool : StakePool) : Terms where
  id := pool.id
  stakingToken := pool.stakingToken
  rewardToken := pool.rewardToken
  startTime := pool.startTime
  precision := pool.precision
  owner := pool.owner
  totalReward := pool.totalReward

def scale (pool : StakePool) : Nat := 10 ^ pool.precision.toNat

/-- What a stake is entitled to at the accumulator's present value, counted
from the value zero. -/
def earned (pool : StakePool) (amount : U256) : Nat :=
  amount.toNat * pool.accTokenPerShare.toNat / pool.scale

/-- `update_pool` at `now` reaches its crediting branch. -/
def CreditsAt (pool : StakePool) (now : UInt64) : Prop :=
  pool.lastRewardTimestamp < now ∧ pool.totalStaked.toNat ≠ 0 ∧
    pool.startTime ≤ now ∧ pool.lastRewardTimestamp ≤ pool.endTime

instance (pool : StakePool) (now : UInt64) : Decidable (pool.CreditsAt now) :=
  inferInstanceAs (Decidable (_ ∧ _))

theorem scale_pos (pool : StakePool) : 0 < pool.scale :=
  Nat.pow_pos (by decide)

theorem earned_eq_zero {pool : StakePool} {amount : U256} (zero : amount.toNat = 0) :
    pool.earned amount = 0 := by
  simp [earned, zero]

end StakePool

structure CreditOf (now : UInt64) (pool : StakePool) (credit : Credit) : Prop where
  unlocked : credit.unlocked =
    getMin now pool.endTime - getMax pool.startTime pool.lastRewardTimestamp
  window : 0 < (pool.endTime - pool.startTime).toNat
  rewards : credit.rewards.toNat =
    credit.unlocked.toNat * pool.totalReward.toNat /
      (pool.endTime - pool.startTime).toNat
  totalStaked : credit.totalStaked = pool.totalStaked
  share : credit.share.toNat =
    credit.rewards.toNat * pool.scale / pool.totalStaked.toNat

inductive Accrual (now : UInt64) (pool : StakePool) :
    StakePool → Option Credit → Prop where
  | kept
      (settled : now ≤ pool.lastRewardTimestamp ∨
        pool.lastRewardTimestamp < now ∧ pool.totalStaked.toNat ≠ 0 ∧
          pool.startTime ≤ now ∧ pool.endTime < pool.lastRewardTimestamp) :
      Accrual now pool pool none
  | idle (later : pool.lastRewardTimestamp < now)
      (nothing : pool.totalStaked.toNat = 0 ∨ now < pool.startTime) :
      Accrual now pool { pool with lastRewardTimestamp := now } none
  | credited {credit : Credit} {accTokenPerShare : U256}
      (reaches : pool.CreditsAt now) (numbers : CreditOf now pool credit)
      (sum : accTokenPerShare.toNat =
        pool.accTokenPerShare.toNat + credit.share.toNat) :
      Accrual now pool
        { pool with accTokenPerShare, lastRewardTimestamp := now } (some credit)

theorem accrual_of_updatedPool {now : UInt64} {pool pool' : StakePool}
    {credit : Option Credit} (success : updatedPool now pool = .ok (pool', credit)) :
    Accrual now pool pool' credit := by
  unfold updatedPool at success
  simp only at success
  split at success
  · rename_i settled
    cases success
    exact .kept (.inl settled)
  · rename_i notSettled
    have later : pool.lastRewardTimestamp < now := UInt64.not_le.mp notSettled
    split at success
    · rename_i nothing
      cases success
      exact .idle later (by simpa using nothing)
    · rename_i something
      have active : pool.totalStaked.toNat ≠ 0 ∧ pool.startTime ≤ now := by
        simpa using something
      split at success
      · rename_i ended
        cases success
        exact .kept (.inr ⟨later, active.1, active.2, ended⟩)
      · rename_i notEnded
        simp only [bind_eq_ok, orPanic_eq_ok, pure_eq_ok, U256.checkedPow_eq_some,
          U256.checkedMul_eq_some, U256.checkedDiv_eq_some,
          U256.checkedAdd_eq_some, U256.toNat_ofUInt64, U256.toNat_ten,
          Prod.mk.injEq] at success
        obtain ⟨precision, power, product, productEq, rewards, ⟨window, rewardsEq⟩,
          scaled, scaledEq, share, ⟨-, shareEq⟩, acc, accEq, rfl, rfl⟩ := success
        refine .credited ⟨later, active.1, active.2, UInt64.not_lt.mp notEnded⟩ ?_ accEq
        exact {
          unlocked := rfl
          window := window
          rewards := by rw [rewardsEq, productEq]
          totalStaked := rfl
          share := by rw [shareEq, scaledEq, power]; rfl }

namespace Accrual

variable {now : UInt64} {pool pool' : StakePool} {credit : Option Credit}

theorem terms_eq (accrual : Accrual now pool pool' credit) :
    pool'.terms = pool.terms := by
  cases accrual <;> rfl

theorem startTime_eq (accrual : Accrual now pool pool' credit) :
    pool'.startTime = pool.startTime := by
  cases accrual <;> rfl

theorem endTime_eq (accrual : Accrual now pool pool' credit) :
    pool'.endTime = pool.endTime := by
  cases accrual <;> rfl

theorem totalStaked_eq (accrual : Accrual now pool pool' credit) :
    pool'.totalStaked = pool.totalStaked := by
  cases accrual <;> rfl

/-- The accumulator grows by the share of the credit, if there is one. -/
theorem acc_eq (accrual : Accrual now pool pool' credit) :
    pool'.accTokenPerShare.toNat =
      pool.accTokenPerShare.toNat + (credit.elim 0 fun c => c.share.toNat) := by
  cases accrual with
  | kept => simp
  | idle => simp
  | credited reaches numbers sum => simpa using sum

theorem acc_le (accrual : Accrual now pool pool' credit) :
    pool.accTokenPerShare.toNat ≤ pool'.accTokenPerShare.toNat := by
  rw [accrual.acc_eq]
  exact Nat.le_add_right _ _

theorem last_le (accrual : Accrual now pool pool' credit) :
    pool.lastRewardTimestamp.toNat ≤ pool'.lastRewardTimestamp.toNat := by
  cases accrual with
  | kept => exact le_refl _
  | idle later => exact le_of_lt (UInt64.lt_iff_toNat_lt.mp later)
  | credited reaches => exact le_of_lt (UInt64.lt_iff_toNat_lt.mp reaches.1)

end Accrual

end CasperContracts.Staking
