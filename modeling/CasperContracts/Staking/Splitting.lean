import CasperContracts.Basis.Flooring
import CasperContracts.Staking.Emission

/-!
# Many updates instead of one

An update moves a pool along its window and adds a share of the reward of the
seconds it passes.  However often a pool is updated, the seconds add up to the
same; but each update rounds the reward of its seconds down to a whole unit before
it is scaled, and what is lost there is never made up for.
-/

namespace CasperContracts.Staking

open CasperContracts.Basis Host

namespace StakePool

/-- The time up to which a pool updated at `now` has passed its window. -/
def passed (pool : StakePool) (now : UInt64) : Nat :=
  max pool.startTime.toNat (min now.toNat pool.endTime.toNat)

/-- The time up to which a row of updates passes the window, from one on. -/
def passedAt (pool : StakePool) : Nat → List UInt64 → Nat
  | reached, [] => reached
  | reached, now :: later => pool.passedAt (max reached (pool.passed now)) later

def parts (pool : StakePool) : Nat → List UInt64 → List Nat
  | _, [] => []
  | reached, now :: later =>
      (max reached (pool.passed now) - reached) ::
        pool.parts (max reached (pool.passed now)) later

/-- The whole units of the reward of some seconds. -/
def rewardOf (pool : StakePool) (unlocked : Nat) : Nat :=
  unlocked * pool.totalReward.toNat / (pool.endTime.toNat - pool.startTime.toNat)

/-- The growth of the accumulator for some seconds. -/
def shareOf (pool : StakePool) (unlocked : Nat) : Nat :=
  pool.rewardOf unlocked * pool.scale / pool.totalStaked.toNat

/-- The whole units of the reward that parts of some seconds lose, each rounded down. -/
def lost (pool : StakePool) (parts : List Nat) : Nat :=
  pool.rewardOf parts.sum - (parts.map pool.rewardOf).sum

/-- What the divisions by the stake leave over. -/
def leftOver (pool : StakePool) (parts : List Nat) : Nat :=
  (parts.map fun part => pool.rewardOf part * pool.scale % pool.totalStaked.toNat).sum

/-- What is lost, at the scale of the accumulator, stays below one unit for each part. -/
def RoundsWell (pool : StakePool) (parts : List Nat) : Prop :=
  pool.lost parts * pool.scale + pool.leftOver parts <
    parts.length * pool.totalStaked.toNat

instance (pool : StakePool) (parts : List Nat) : Decidable (pool.RoundsWell parts) :=
  inferInstanceAs (Decidable (_ < _))

section Parts

variable {pool : StakePool} {reached : Nat} {times : List UInt64} {last : UInt64}

theorem passed_mono (pool : StakePool) {now later : UInt64} (le : now ≤ later) :
    pool.passed now ≤ pool.passed later := by
  rw [UInt64.le_iff_toNat_le] at le
  unfold passed
  omega

theorem sum_parts (pool : StakePool) (reached : Nat) (times : List UInt64) :
    reached + (pool.parts reached times).sum = pool.passedAt reached times := by
  induction times generalizing reached with
  | nil => rfl
  | cons now times ih =>
      have onward := ih (max reached (pool.passed now))
      rw [parts, List.sum_cons, passedAt]
      omega

@[simp] theorem length_parts (pool : StakePool) (reached : Nat) (times : List UInt64) :
    (pool.parts reached times).length = times.length := by
  induction times generalizing reached with
  | nil => rfl
  | cons now times ih => rw [parts, List.length_cons, ih, List.length_cons]

theorem passedAt_ordered (ordered : (times ++ [last]).Pairwise (· ≤ ·)) :
    pool.passedAt reached (times ++ [last]) = max reached (pool.passed last) := by
  induction times generalizing reached with
  | nil => rfl
  | cons now times ih =>
      rw [List.cons_append, List.pairwise_cons] at ordered
      have onward := pool.passed_mono (ordered.1 last (by simp))
      rw [List.cons_append, passedAt, ih ordered.2]
      omega

end Parts

structure SameWindow (pool pool' : StakePool) : Prop where
  terms : pool'.terms = pool.terms
  endTime : pool'.endTime = pool.endTime
  totalStaked : pool'.totalStaked = pool.totalStaked

namespace SameWindow

variable {pool pool' : StakePool}

theorem startTime (same : SameWindow pool pool') : pool'.startTime = pool.startTime :=
  congrArg Terms.startTime same.terms

theorem passed (same : SameWindow pool pool') : pool'.passed = pool.passed := by
  funext now
  rw [StakePool.passed, same.startTime, same.endTime, StakePool.passed]

theorem shareOf (same : SameWindow pool pool') : pool'.shareOf = pool.shareOf := by
  have reward : pool'.totalReward = pool.totalReward := congrArg Terms.totalReward same.terms
  have precision : pool'.precision = pool.precision := congrArg Terms.precision same.terms
  funext unlocked
  simp only [StakePool.shareOf, rewardOf, scale, same.startTime, same.endTime,
    same.totalStaked, reward, precision]

theorem parts (same : SameWindow pool pool') : pool'.parts = pool.parts := by
  funext reached times
  induction times generalizing reached with
  | nil => rfl
  | cons now times ih => rw [StakePool.parts, StakePool.parts, same.passed, ih]

end SameWindow

end StakePool

/-! ## A row of updates -/

def updatedPools : List UInt64 → StakePool → Except Failure StakePool
  | [], pool => .ok pool
  | now :: later, pool => do
      let (pool, _) ← updatedPool now pool
      updatedPools later pool

section Updates

variable {now last : UInt64} {pool pool' : StakePool} {credit : Option Credit}
  {times : List UInt64} {parts : List Nat}

theorem Accrual.sameWindow (accrual : Accrual now pool pool' credit) :
    pool.SameWindow pool' :=
  ⟨accrual.terms_eq, accrual.endTime_eq, accrual.totalStaked_eq⟩

/-- Whichever branch it takes, an update passes the window up to its time. -/
theorem Accrual.passed (window : pool.startTime < pool.endTime)
    (accrual : Accrual now pool pool' credit) :
    pool.passed pool'.lastRewardTimestamp =
      max (pool.passed pool.lastRewardTimestamp) (pool.passed now) := by
  rw [UInt64.lt_iff_toNat_lt] at window
  cases accrual with
  | kept settled =>
      simp only [UInt64.le_iff_toNat_le, UInt64.lt_iff_toNat_lt] at settled
      unfold StakePool.passed
      omega
  | idle later empty => exact (max_eq_right (pool.passed_mono (UInt64.le_of_lt later))).symm
  | credited reaches => exact (max_eq_right (pool.passed_mono (UInt64.le_of_lt reaches.1))).symm

theorem Accrual.share (window : pool.startTime < pool.endTime)
    (accrual : Accrual now pool pool' credit) :
    pool'.accTokenPerShare.toNat = pool.accTokenPerShare.toNat +
      pool.shareOf (max (pool.passed pool.lastRewardTimestamp) (pool.passed now) -
        pool.passed pool.lastRewardTimestamp) := by
  have moved := accrual.passed window
  rw [UInt64.lt_iff_toNat_lt] at window
  have nothing : pool.shareOf 0 = 0 := by
    simp [StakePool.shareOf, StakePool.rewardOf]
  rw [← moved]
  cases accrual with
  | kept => rw [Nat.sub_self, nothing, Nat.add_zero]
  | idle later empty =>
      rcases empty with noStake | early
      · simp [StakePool.shareOf, noStake]
      · have still : pool.passed now - pool.passed pool.lastRewardTimestamp = 0 := by
          rw [UInt64.lt_iff_toNat_lt] at later early
          unfold StakePool.passed
          omega
        change _ = _ + pool.shareOf (pool.passed now - _)
        rw [still, nothing, Nat.add_zero]
  | @credited credit acc reaches numbers sum =>
      have unlocked := numbers.unlocked_toNat reaches (le_of_lt window)
      have share : credit.share.toNat = pool.shareOf credit.unlocked.toNat := by
        rw [numbers.share, numbers.rewards, CreditOf.window_toNat (le_of_lt window)]
        rfl
      obtain ⟨later, -, started, notEnded⟩ := reaches
      simp only [UInt64.le_iff_toNat_le, UInt64.lt_iff_toNat_lt] at later started notEnded
      have seconds : credit.unlocked.toNat =
          pool.passed now - pool.passed pool.lastRewardTimestamp := by
        unfold StakePool.passed
        omega
      rw [sum, share, seconds]

theorem share_of_updatedPools (window : pool.startTime < pool.endTime)
    (success : updatedPools times pool = .ok pool') :
    pool'.accTokenPerShare.toNat = pool.accTokenPerShare.toNat +
      ((pool.parts (pool.passed pool.lastRewardTimestamp) times).map pool.shareOf).sum := by
  induction times generalizing pool with
  | nil =>
      cases success
      rfl
  | cons now times ih =>
      simp only [updatedPools, bind_eq_ok] at success
      obtain ⟨⟨pool₁, credit⟩, first, rest⟩ := success
      have accrual := accrual_of_updatedPool first
      have same := accrual.sameWindow
      have windowAfter : pool₁.startTime < pool₁.endTime := by
        rw [same.startTime, same.endTime]
        exact window
      have later := ih windowAfter rest
      rw [same.passed, same.shareOf, same.parts, accrual.passed window,
        accrual.share window] at later
      rw [later, StakePool.parts, List.map_cons, List.sum_cons, Nat.add_assoc]

/-! ## Rounding -/

/-- The share of the whole is that of the parts and of what they lost. -/
theorem shareOf_sum (staked : 0 < pool.totalStaked.toNat) (parts : List Nat) :
    pool.shareOf parts.sum = (parts.map pool.shareOf).sum +
      (pool.lost parts * pool.scale + pool.leftOver parts) / pool.totalStaked.toNat := by
  let rewards := parts.map pool.rewardOf
  have shares : (rewards.map fun reward => reward * pool.scale / pool.totalStaked.toNat) =
      parts.map pool.shareOf :=
    List.map_map
  have remainders : (rewards.map fun reward =>
      reward * pool.scale % pool.totalStaked.toNat).sum = pool.leftOver parts := by
    rw [List.map_map]
    rfl
  have total := sum_rounded_add_sum_mod pool.scale pool.totalStaked.toNat rewards
  rw [shares, remainders] at total
  have rewardsLe : rewards.sum ≤ pool.rewardOf parts.sum := sum_rounded_le _ _ parts
  have whole : pool.rewardOf parts.sum = rewards.sum + pool.lost parts :=
    (Nat.add_sub_cancel' rewardsLe).symm
  rw [StakePool.shareOf, whole, Nat.add_mul, ← total, ← Nat.mul_add_div staked]
  congr 1
  omega

/-- Each part but one loses less than a whole unit of the reward. -/
theorem lost_le (window : pool.startTime < pool.endTime) (some : parts ≠ []) :
    pool.lost parts ≤ parts.length - 1 := by
  rw [UInt64.lt_iff_toNat_lt] at window
  have bound := rounded_sum_le (show 0 < pool.endTime.toNat - pool.startTime.toNat by omega)
    pool.totalReward.toNat some
  unfold StakePool.lost
  exact Nat.sub_le_iff_le_add'.mpr bound

theorem leftOver_le (staked : 0 < pool.totalStaked.toNat) (parts : List Nat) :
    pool.leftOver parts ≤ parts.length * (pool.totalStaked.toNat - 1) := by
  have bound := sum_mod_le staked pool.scale (parts.map pool.rewardOf)
  rw [List.map_map, List.length_map] at bound
  exact bound

/-- Parts that lose no whole unit of the reward round well. -/
theorem roundsWell_of_lossless (staked : 0 < pool.totalStaked.toNat) (some : parts ≠ [])
    (lossless : pool.lost parts = 0) : pool.RoundsWell parts := by
  rw [StakePool.RoundsWell, lossless, Nat.zero_mul, Nat.zero_add]
  exact lt_of_le_of_lt (leftOver_le staked parts)
    (Nat.mul_lt_mul_of_pos_left (by omega) (List.length_pos_iff.mpr some))

/-- Parts that lose one do not, unless the stake is worth more than the scale. -/
theorem not_roundsWell (lossy : pool.lost parts ≠ 0)
    (large : parts.length * pool.totalStaked.toNat ≤ pool.scale) :
    ¬ pool.RoundsWell parts := by
  have unit : pool.scale ≤ pool.lost parts * pool.scale :=
    Nat.le_mul_of_pos_left _ (Nat.pos_of_ne_zero lossy)
  unfold StakePool.RoundsWell
  omega

private theorem share_of_updatedPool {one : StakePool}
    (window : pool.startTime < pool.endTime) (ordered : (times ++ [last]).Pairwise (· ≤ ·))
    (single : updatedPool last pool = .ok (one, credit)) :
    one.accTokenPerShare.toNat = pool.accTokenPerShare.toNat +
      pool.shareOf
        (pool.parts (pool.passed pool.lastRewardTimestamp) (times ++ [last])).sum := by
  have seconds := pool.sum_parts (pool.passed pool.lastRewardTimestamp) (times ++ [last])
  rw [StakePool.passedAt_ordered ordered] at seconds
  rw [(accrual_of_updatedPool single).share window, ← seconds, Nat.add_sub_cancel_left]

section Split

variable {one many : StakePool}

theorem split_updates_eq (window : pool.startTime < pool.endTime)
    (staked : 0 < pool.totalStaked.toNat) (ordered : (times ++ [last]).Pairwise (· ≤ ·))
    (single : updatedPool last pool = .ok (one, credit))
    (split : updatedPools (times ++ [last]) pool = .ok many) :
    let parts := pool.parts (pool.passed pool.lastRewardTimestamp) (times ++ [last])
    one.accTokenPerShare.toNat = many.accTokenPerShare.toNat +
      (pool.lost parts * pool.scale + pool.leftOver parts) / pool.totalStaked.toNat := by
  intro parts
  rw [share_of_updatedPool window ordered single, share_of_updatedPools window split,
    shareOf_sum staked, Nat.add_assoc]

/-- Updating a pool at `n` times never leaves its accumulator above where a single
update at the last of them leaves it, and it is below by at most what `n - 1` whole
units of the reward and the remainders of `n` divisions by the stake are worth.  It
is below by at most `n - 1` units exactly when the parts round well. -/
theorem split_updates_close_iff (window : pool.startTime < pool.endTime)
    (staked : 0 < pool.totalStaked.toNat) (ordered : (times ++ [last]).Pairwise (· ≤ ·))
    (single : updatedPool last pool = .ok (one, credit))
    (split : updatedPools (times ++ [last]) pool = .ok many) :
    many.accTokenPerShare.toNat ≤ one.accTokenPerShare.toNat ∧
    one.accTokenPerShare.toNat ≤ many.accTokenPerShare.toNat +
      (times.length * pool.scale + (times.length + 1) * (pool.totalStaked.toNat - 1)) /
        pool.totalStaked.toNat ∧
    ((many.accTokenPerShare.toNat ≤ one.accTokenPerShare.toNat ∧
      one.accTokenPerShare.toNat ≤ many.accTokenPerShare.toNat + times.length) ↔
      pool.RoundsWell
        (pool.parts (pool.passed pool.lastRewardTimestamp) (times ++ [last]))) := by
  have short := split_updates_eq window staked ordered single split
  have length := pool.length_parts (pool.passed pool.lastRewardTimestamp) (times ++ [last])
  simp only at short
  generalize pool.parts (pool.passed pool.lastRewardTimestamp) (times ++ [last]) = parts at *
  rw [List.length_append, List.length_singleton] at length
  have le : many.accTokenPerShare.toNat ≤ one.accTokenPerShare.toNat := by
    rw [short]
    exact Nat.le_add_right _ _
  have some : parts ≠ [] := List.ne_nil_of_length_eq_add_one length
  refine ⟨le, ?_, ?_⟩
  · have units := lost_le window some
    have remainders := leftOver_le staked parts
    rw [length] at units remainders
    rw [short]
    exact Nat.add_le_add_left (Nat.div_le_div_right
      (Nat.add_le_add (Nat.mul_le_mul_right _ units) remainders)) _
  · rw [StakePool.RoundsWell, length, ← Nat.div_lt_iff_lt_mul staked, Nat.lt_succ_iff]
    constructor
    · intro near
      omega
    · intro near
      exact ⟨le, by omega⟩

end Split

end Updates

section Sample

open Sample

/-- A pool with a reward of `reward` over two seconds and a stake of one. -/
def brief (reward : UInt64) : StakePool where
  id := 0
  lastRewardTimestamp := 10
  stakingToken := tokenA
  rewardToken := tokenB
  startTime := 10
  endTime := 12
  precision := 18
  owner := owner
  totalReward := units reward
  accTokenPerShare := U256.zero
  totalStaked := units 1

/-- The pool after its last update, at the end of the window. -/
def briefAt (acc : UInt64) (reward : UInt64) : StakePool :=
  { brief reward with lastRewardTimestamp := 12, accTokenPerShare := units acc }

/-- A reward of four is two for each second, and nothing is lost. -/
theorem split_updates_close_iff_even :
    (briefAt 4000000000000000000 4).accTokenPerShare.toNat ≤
        (briefAt 4000000000000000000 4).accTokenPerShare.toNat ∧
      (briefAt 4000000000000000000 4).accTokenPerShare.toNat ≤
        (briefAt 4000000000000000000 4).accTokenPerShare.toNat + 1 := by
  have single : updatedPool 12 (brief 4) = .ok (briefAt 4000000000000000000 4, some {
      unlocked := 2
      rewards := units 4
      totalStaked := units 1
      share := units 4000000000000000000 }) := by rfl
  have split : updatedPools ([11] ++ [12]) (brief 4) =
      .ok (briefAt 4000000000000000000 4) := by rfl
  exact (split_updates_close_iff (by decide) (by decide) (by decide) single split).2.2.mpr
    (by decide)

/-- A reward of one is lost when each of the two seconds is rounded down. -/
theorem split_updates_erase :
    (brief 1).startTime < (brief 1).endTime ∧ 0 < (brief 1).totalStaked.toNat ∧
      (brief 1).lastRewardTimestamp ≤ (brief 1).endTime ∧
      ∃ one credit many, updatedPool 12 (brief 1) = .ok (one, credit) ∧
        updatedPools [11, 12] (brief 1) = .ok many ∧
        many.accTokenPerShare.toNat = 0 ∧
        ¬ (one.accTokenPerShare.toNat ≤ many.accTokenPerShare.toNat + 1) := by
  have single : updatedPool 12 (brief 1) = .ok (briefAt 1000000000000000000 1, some {
      unlocked := 2
      rewards := units 1
      totalStaked := units 1
      share := units 1000000000000000000 }) := by rfl
  have split : updatedPools [11, 12] (brief 1) = .ok (briefAt 0 1) := by rfl
  exact ⟨by decide, by decide, by decide, _, _, _, single, split, rfl, by decide⟩

end Sample

end CasperContracts.Staking
