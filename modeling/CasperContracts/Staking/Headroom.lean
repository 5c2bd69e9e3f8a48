import CasperContracts.Staking.Emission
import CasperContracts.Staking.Frame

/-!
# Headroom

Every product of a settlement is at most the largest total stake times the
total reward times the unit of the accumulator, and every product of an update
is at most that or the reward times the length of the window.  Where these two
numbers fit into 256 bits, no deposit and no withdrawal can fail in the
contract.
-/

namespace CasperContracts.Staking

open CasperContracts.Basis Host Prog

/-- What a call adds to the stake of a pool. -/
def Call.depositInto (poolId : UInt64) : Call → Nat
  | .deposit amount other => if other = poolId then amount.toNat else 0
  | _ => 0

/-- The pool is not stopped, and no deposit takes its total stake beyond `supply`. -/
def withinSupply (supply : Nat) (poolId : UInt64) (_ : Context) (call : Call)
    (storage : Storage) : Prop :=
  call ≠ .stopReward poolId ∧
    OnStored poolId storage fun pool =>
      pool.totalStaked.toNat + call.depositInto poolId ≤ supply

instance (supply : Nat) (poolId : UInt64) (context : Context) (call : Call)
    (storage : Storage) : Decidable (withinSupply supply poolId context call storage) :=
  inferInstanceAs (Decidable (_ ∧ OnStored _ _ fun _ => _ ≤ _))

/-- The largest products of a pool with at most `supply` staked fit into 256 bits. -/
structure Headroom (supply : Nat) (first : StakePool) : Prop where
  window : (first.endTime.toNat - first.startTime.toNat) * first.totalReward.toNat <
    2 ^ 256
  scaled : supply * (first.scale * first.totalReward.toNat) < 2 ^ 256

/-- What bounds the numbers of a pool that is never stopped. -/
structure Bounded (supply : Nat) (first : StakePool) (now : UInt64) (pool : StakePool)
    (members : Members) (log : List Event) : Prop where
  sound : Sound first pool members
  scheduled : Scheduled first now pool log
  endTime : pool.endTime = first.endTime
  acc : pool.accTokenPerShare.toNat ≤ first.scale * rewardsIn log
  staked : pool.totalStaked.toNat ≤ supply
  precise : 18 ≤ first.precision ∧ first.precision ≤ 36
  reward : 0 < first.totalReward.toNat

section Bounds

variable {supply : Nat} {first pool accrued : StakePool} {now later poolId : UInt64}
  {members : Members} {log : List Event} {credit : Option Credit}

theorem Scheduled.rewardsIn_le (scheduled : Scheduled first now pool log)
    (proper : first.startTime < first.endTime) :
    rewardsIn log ≤ first.totalReward.toNat := by
  rw [UInt64.lt_iff_toNat_lt] at proper
  have finish := scheduled.end_le
  apply Nat.le_of_mul_le_mul_right _ (Nat.sub_pos_of_lt proper)
  apply le_trans scheduled.within
  apply Nat.mul_le_mul_left
  omega

namespace Bounded

theorem unwrapped (bounded : Bounded supply first now pool members log)
    (proper : first.startTime < first.endTime) : ¬ pool.WrapsAt later := by
  intro given
  obtain ⟨wraps, -⟩ := given
  rw [bounded.endTime, bounded.scheduled.startTime_eq] at wraps
  exact absurd wraps (UInt64.not_lt.mpr (UInt64.le_of_lt proper))

theorem acc_le (bounded : Bounded supply first now pool members log)
    (proper : first.startTime < first.endTime) :
    pool.accTokenPerShare.toNat ≤ first.scale * first.totalReward.toNat :=
  le_trans bounded.acc (Nat.mul_le_mul_left _ (bounded.scheduled.rewardsIn_le proper))

theorem wait (bounded : Bounded supply first now pool members log) (le : now ≤ later) :
    Bounded supply first later pool members log :=
  { bounded with scheduled := bounded.scheduled.wait le }

end Bounded

theorem CreditOf.share_le_scaled {numbers : Credit} (credits : CreditOf later pool numbers)
    (staked : pool.totalStaked.toNat ≠ 0) :
    numbers.share.toNat ≤ pool.scale * numbers.rewards.toNat := by
  have bound := credits.share_le
  rw [credits.totalStaked] at bound
  exact le_trans (Nat.le_mul_of_pos_right _ (Nat.pos_of_ne_zero staked)) bound

/-- The accumulator stays below what has been credited, scaled. -/
theorem Bounded.acc_of_accrual (bounded : Bounded supply first now pool members log)
    (accrual : Accrual later pool accrued credit) :
    accrued.accTokenPerShare.toNat ≤
      first.scale * rewardsIn (log ++ creditEvents poolId credit) := by
  cases accrual with
  | kept => simpa [creditEvents] using bounded.acc
  | idle => simpa [creditEvents] using bounded.acc
  | @credited numbers acc reaches credits sum =>
      have share := credits.share_le_scaled reaches.2.1
      rw [bounded.scheduled.scale_eq] at share
      have rewards : rewardsIn (log ++ creditEvents poolId (some numbers)) =
          rewardsIn log + numbers.rewards.toNat :=
        sumOver_credited _ _ _ _
      have before := bounded.acc
      change acc.toNat ≤ _
      rw [rewards, Nat.mul_add]
      omega

end Bounds

/-! ## Every change keeps the bounds -/

section Change

variable {context : Context} {selfHash : ContractPackageHash} {poolId now : UInt64}
  {supply : Nat} {first pool pool' accrued : StakePool} {members members' : Members}
  {call : Call} {requests : List TokenCall} {log events : List Event}
  {user user' : UserInfo}

theorem Settled.amount_le
    (settled : Settled context selfHash poolId accrued user user' call requests events) :
    user'.amount.toNat ≤ user.amount.toNat + call.depositInto poolId := by
  cases settled with
  | first nonzero opened fresh total =>
      simp only [Call.depositInto, if_pos]
      omega
  | topUp nonzero opened staking total =>
      simp only [Call.depositInto, if_pos]
      omega
  | withdraw nonzero total =>
      simp only [Call.depositInto]
      omega

theorem PoolChange.bounded (proper : first.startTime < first.endTime)
    (le : now ≤ context.blocktime) (notStopped : call ≠ .stopReward poolId)
    (room : pool.totalStaked.toNat + call.depositInto poolId ≤ supply)
    (change : PoolChange context selfHash poolId pool members call events pool' members')
    (bounded : Bounded supply first now pool members log) :
    Bounded supply first context.blocktime pool' members' (log ++ events) := by
  have scheduled : Scheduled first context.blocktime pool' (log ++ events) :=
    change.scheduled proper le (fun _ => bounded.unwrapped proper) bounded.scheduled
  have sound := change.sound bounded.sound
  cases change with
  | @settle _ accrued _ user' totalStaked _ _ accrual settled debt staked =>
      refine ⟨sound, scheduled, accrual.endTime_eq.trans bounded.endTime, ?_, ?_,
        bounded.precise, bounded.reward⟩
      · have acc : accrued.accTokenPerShare.toNat ≤
            first.scale * rewardsIn (log ++ creditEvents poolId _) :=
          bounded.acc_of_accrual accrual
        rw [← List.append_assoc, rewardsIn, sumOver_append]
        exact le_trans acc (Nat.mul_le_mul_left _ (Nat.le_add_right _ _))
      · have added := settled.amount_le
        rw [accrual.totalStaked_eq] at staked
        change totalStaked.toNat ≤ supply
        omega
  | @emergencyWithdraw amount totalStaked whole nonzero staked =>
      refine ⟨sound, scheduled, bounded.endTime, ?_, ?_, bounded.precise, bounded.reward⟩
      · rw [rewardsIn, sumOver_append]
        exact le_trans bounded.acc (Nat.mul_le_mul_left _ (Nat.le_add_right _ _))
      · have before := bounded.staked
        change totalStaked.toNat ≤ supply
        omega
  | stopReward => exact absurd rfl notStopped

theorem bounded_invariant (supply : Nat) (poolId : UInt64) {first : StakePool}
    (proper : first.startTime < first.endTime) :
    PoolInvariant (withinSupply supply poolId) poolId (Bounded supply first) where
  wait := fun bounded le => bounded.wait le
  change := fun bounded le read allowed change =>
    change.bounded proper le allowed.1 (allowed.2.of_getPool read) bounded

theorem bounded_of_new (new : NewPool context poolId first) :
    Bounded supply first context.blocktime first ∅ [.poolAdded first] where
  sound := .of_new new
  scheduled := .of_new new
  endTime := rfl
  acc := by rw [new.acc]; exact Nat.zero_le _
  staked := by rw [new.staked]; exact Nat.zero_le _
  precise := new.precision
  reward := new.reward

end Change

/-! ## Every operation has a value -/

section Defined

variable {supply : Nat} {first pool accrued : StakePool} {now later poolId : UInt64}
  {members : Members} {log : List Event} {credit : Option Credit}

theorem Bounded.exists_precision (bounded : Bounded supply first now pool members log) :
    ∃ precision, U256.ten.checkedPow (.ofUInt64 pool.precision) = some precision ∧
      precision.toNat = pool.scale := by
  have samePrecision : pool.precision = first.precision :=
    congrArg Terms.precision bounded.sound.terms
  have small : pool.precision.toNat ≤ 36 := by
    rw [samePrecision]
    exact UInt64.le_iff_toNat_le.mp bounded.precise.2
  have power : 10 ^ pool.precision.toNat ≤ 10 ^ 36 :=
    Nat.pow_le_pow_right (by decide) small
  exact U256.exists_checkedPow (lt_of_le_of_lt power (by decide))

theorem exists_earned {amount precision : U256} (unit : precision.toNat = pool.scale)
    (fits : amount.toNat * pool.accTokenPerShare.toNat < 2 ^ 256) :
    ∃ product quotient, amount.checkedMul pool.accTokenPerShare = some product ∧
      product.checkedDiv precision = some quotient ∧
      quotient.toNat = pool.earned amount := by
  obtain ⟨product, mul, productEq⟩ := U256.exists_checkedMul fits
  have positive : 0 < precision.toNat := unit ▸ pool.scale_pos
  obtain ⟨quotient, div, quotientEq⟩ := U256.exists_checkedDiv positive
  refine ⟨product, quotient, mul, div, ?_⟩
  rw [quotientEq, productEq, unit]
  rfl

/-- An update that reaches the crediting branch succeeds when its operations do. -/
theorem updatedPool_of_credits {precision product rewards scaled share acc : U256}
    (reaches : pool.CreditsAt later)
    (power : U256.ten.checkedPow (.ofUInt64 pool.precision) = some precision)
    (mul : (U256.ofUInt64 (getMin later pool.endTime -
      getMax pool.startTime pool.lastRewardTimestamp)).checkedMul pool.totalReward =
        some product)
    (div : product.checkedDiv (.ofUInt64 (pool.endTime - pool.startTime)) = some rewards)
    (scale : rewards.checkedMul precision = some scaled)
    (shares : scaled.checkedDiv pool.totalStaked = some share)
    (sum : pool.accTokenPerShare.checkedAdd share = some acc) :
    ∃ accrued credit, updatedPool later pool = .ok (accrued, credit) := by
  obtain ⟨isLater, staked, started, notEnded⟩ := reaches
  have active : ¬ (pool.totalStaked.isZero || decide (pool.startTime > later)) = true := by
    simpa [staked] using started
  unfold updatedPool
  simp only [if_neg (UInt64.not_le.mpr isLater), if_neg active,
    if_neg (UInt64.not_lt.mpr notEnded), bind_eq_ok, orPanic_eq_ok, pure_eq_ok]
  exact ⟨_, _, precision, power, product, mul, rewards, div, scaled, scale, share, shares,
    acc, sum, rfl⟩

theorem Bounded.rewards_le {numbers : Credit}
    (bounded : Bounded supply first now pool members log)
    (proper : first.startTime < first.endTime) (reaches : pool.CreditsAt later)
    (credits : CreditOf later pool numbers) :
    rewardsIn log + numbers.rewards.toNat ≤ first.totalReward.toNat := by
  have within := bounded.scheduled.within_credited proper (bounded.unwrapped proper)
    reaches credits
  have finish := bounded.scheduled.end_le
  rw [UInt64.lt_iff_toNat_lt] at proper
  apply Nat.le_of_mul_le_mul_right _ (Nat.sub_pos_of_lt proper)
  apply le_trans within
  apply Nat.mul_le_mul_left
  omega

theorem Bounded.seconds_le (bounded : Bounded supply first now pool members log)
    (proper : first.startTime < first.endTime) (reaches : pool.CreditsAt later) :
    (getMin later pool.endTime - getMax pool.startTime pool.lastRewardTimestamp).toNat ≤
      first.endTime.toNat - first.startTime.toNat := by
  have finish := congrArg UInt64.toNat bounded.endTime
  have start := congrArg UInt64.toNat bounded.scheduled.startTime_eq
  obtain ⟨isLater, -, started, notEnded⟩ := reaches
  rw [UInt64.lt_iff_toNat_lt] at isLater proper
  rw [UInt64.le_iff_toNat_le] at started notEnded
  have upper := getMin_toNat later pool.endTime
  have lower := getMax_toNat pool.startTime pool.lastRewardTimestamp
  rw [toNat_sub_of_le (by omega)]
  omega

theorem Bounded.window_toNat (bounded : Bounded supply first now pool members log)
    (proper : first.startTime < first.endTime) :
    (pool.endTime - pool.startTime).toNat =
      first.endTime.toNat - first.startTime.toNat := by
  rw [UInt64.lt_iff_toNat_lt] at proper
  rw [bounded.endTime, bounded.scheduled.startTime_eq]
  exact toNat_sub_of_le (le_of_lt proper)

theorem Bounded.exists_rewards (bounded : Bounded supply first now pool members log)
    (proper : first.startTime < first.endTime) (headroom : Headroom supply first)
    (reaches : pool.CreditsAt later) :
    ∃ product rewards,
      (U256.ofUInt64 (getMin later pool.endTime -
        getMax pool.startTime pool.lastRewardTimestamp)).checkedMul pool.totalReward =
          some product ∧
      product.checkedDiv (.ofUInt64 (pool.endTime - pool.startTime)) = some rewards ∧
      rewards.toNat = (getMin later pool.endTime -
        getMax pool.startTime pool.lastRewardTimestamp).toNat * pool.totalReward.toNat /
          (pool.endTime - pool.startTime).toNat := by
  have seconds := bounded.seconds_le proper reaches
  have room := headroom.window
  rw [← bounded.scheduled.totalReward_eq] at room
  have productFits : (U256.ofUInt64 (getMin later pool.endTime -
      getMax pool.startTime pool.lastRewardTimestamp)).toNat * pool.totalReward.toNat <
        2 ^ 256 :=
    lt_of_le_of_lt (Nat.mul_le_mul_right _ seconds) room
  obtain ⟨product, mul, productEq⟩ := U256.exists_checkedMul productFits
  have positive : 0 < (U256.ofUInt64 (pool.endTime - pool.startTime)).toNat := by
    rw [U256.toNat_ofUInt64, bounded.window_toNat proper]
    exact Nat.sub_pos_of_lt (UInt64.lt_iff_toNat_lt.mp proper)
  obtain ⟨rewards, div, rewardsEq⟩ := U256.exists_checkedDiv positive
  refine ⟨product, rewards, mul, div, ?_⟩
  rw [rewardsEq, productEq]
  rfl

/-- With headroom an update cannot fail. -/
theorem Bounded.exists_updatedPool (bounded : Bounded supply first now pool members log)
    (proper : first.startTime < first.endTime) (headroom : Headroom supply first)
    (later : UInt64) :
    ∃ accrued credit, updatedPool later pool = .ok (accrued, credit) := by
  by_cases reaches : pool.CreditsAt later
  · obtain ⟨precision, power, unit⟩ := bounded.exists_precision
    obtain ⟨product, rewards, mul, div, rewardsEq⟩ :=
      bounded.exists_rewards proper headroom reaches
    have someStaked := Nat.pos_of_ne_zero reaches.2.1
    have room : first.scale * first.totalReward.toNat < 2 ^ 256 :=
      lt_of_le_of_lt (Nat.le_mul_of_pos_left _ (lt_of_lt_of_le someStaked bounded.staked))
        headroom.scaled
    have noMore : rewards.toNat ≤ first.totalReward.toNat := by
      rw [rewardsEq, bounded.window_toNat proper, bounded.scheduled.totalReward_eq]
      exact Nat.div_le_of_le_mul
        (Nat.mul_le_mul_right _ (bounded.seconds_le proper reaches))
    have scaledFits : rewards.toNat * precision.toNat < 2 ^ 256 := by
      rw [unit, bounded.scheduled.scale_eq, Nat.mul_comm]
      exact lt_of_le_of_lt (Nat.mul_le_mul_left _ noMore) room
    obtain ⟨scaled, scale, scaledEq⟩ := U256.exists_checkedMul scaledFits
    obtain ⟨share, shares, shareEq⟩ := U256.exists_checkedDiv someStaked
    have credits : CreditOf later pool {
        unlocked := getMin later pool.endTime -
          getMax pool.startTime pool.lastRewardTimestamp
        rewards, totalStaked := pool.totalStaked, share } := {
      unlocked := rfl
      window := by
        rw [bounded.window_toNat proper]
        exact Nat.sub_pos_of_lt (UInt64.lt_iff_toNat_lt.mp proper)
      rewards := rewardsEq
      totalStaked := rfl
      share := by rw [shareEq, scaledEq, unit] }
    have within := bounded.rewards_le proper reaches credits
    have shareLe := credits.share_le_scaled reaches.2.1
    rw [bounded.scheduled.scale_eq] at shareLe
    have sumFits : pool.accTokenPerShare.toNat + share.toNat < 2 ^ 256 := by
      refine lt_of_le_of_lt (le_trans (Nat.add_le_add bounded.acc shareLe) ?_) room
      rw [← Nat.mul_add]
      exact Nat.mul_le_mul_left _ within
    obtain ⟨acc, sum, -⟩ := U256.exists_checkedAdd sumFits
    exact updatedPool_of_credits reaches power mul div scale shares sum
  · obtain ⟨accrued, computed⟩ := updatedPool_of_not_credits reaches
    exact ⟨accrued, none, computed⟩

/-- A stake of at most the supply can be multiplied by the accumulator. -/
theorem Bounded.stake_fits (bounded : Bounded supply first now pool members log)
    (proper : first.startTime < first.endTime) (headroom : Headroom supply first)
    {amount : Nat} (le : amount ≤ supply) :
    amount * pool.accTokenPerShare.toNat < 2 ^ 256 :=
  lt_of_le_of_lt (Nat.mul_le_mul le (bounded.acc_le proper)) headroom.scaled

theorem Bounded.supply_lt (bounded : Bounded supply first now pool members log)
    (headroom : Headroom supply first) : supply < 2 ^ 256 := by
  have unit : 0 < first.scale * first.totalReward.toNat :=
    Nat.mul_pos first.scale_pos bounded.reward
  exact lt_of_le_of_lt (Nat.le_mul_of_pos_right _ unit) headroom.scaled

theorem Bounded.sum_fits (bounded : Bounded supply first now pool members log)
    (proper : first.startTime < first.endTime) (headroom : Headroom supply first)
    {stake pending amount : U256} (stakeLe : stake.toNat ≤ supply)
    (amountLe : amount.toNat ≤ supply) (within : pending.toNat ≤ pool.earned stake) :
    pending.toNat + amount.toNat < 2 ^ 256 := by
  have two : 2 ≤ first.scale := by
    have precise := UInt64.le_iff_toNat_le.mp bounded.precise.1
    have power : 10 ^ 18 ≤ first.scale := Nat.pow_le_pow_right (by decide) precise
    omega
  have earned : pool.earned stake * 2 < 2 ^ 256 := by
    have rounded : pool.earned stake * pool.scale ≤
        stake.toNat * pool.accTokenPerShare.toNat := Nat.div_mul_le_self _ _
    rw [bounded.scheduled.scale_eq] at rounded
    exact lt_of_le_of_lt (le_trans (Nat.mul_le_mul_left _ two) rounded)
      (bounded.stake_fits proper headroom stakeLe)
  have principal : amount.toNat * 2 < 2 ^ 256 := by
    have unit : 2 ≤ first.scale * first.totalReward.toNat :=
      le_trans two (Nat.le_mul_of_pos_right _ bounded.reward)
    exact lt_of_le_of_lt (Nat.mul_le_mul amountLe unit) headroom.scaled
  omega

theorem Bounded.accrue (bounded : Bounded supply first now pool members log)
    (proper : first.startTime < first.endTime) (le : now ≤ later)
    (accrual : Accrual later pool accrued credit) :
    Bounded supply first later accrued members (log ++ creditEvents poolId credit) where
  sound := {
    terms := accrual.terms_eq.trans bounded.sound.terms
    staked := (congrArg U256.toNat accrual.totalStaked_eq).trans bounded.sound.staked
    debts := fun key => le_trans (bounded.sound.debts key) (accrual.earned_le _) }
  scheduled := bounded.scheduled.accrue poolId proper le (bounded.unwrapped proper) accrual
  endTime := accrual.endTime_eq.trans bounded.endTime
  acc := bounded.acc_of_accrual accrual
  staked := accrual.totalStaked_eq ▸ bounded.staked
  precise := bounded.precise
  reward := bounded.reward

/-- The update of a settlement and the unit it scales by can be computed, and keep
the bounds. -/
theorem Bounded.exists_accrued (bounded : Bounded supply first now pool members log)
    (proper : first.startTime < first.endTime) (headroom : Headroom supply first)
    (poolId : UInt64) (le : now ≤ later) :
    ∃ accrued credit precision, updatedPool later pool = .ok (accrued, credit) ∧
      accrued.totalStaked = pool.totalStaked ∧
      Bounded supply first later accrued members (log ++ creditEvents poolId credit) ∧
      U256.ten.checkedPow (.ofUInt64 accrued.precision) = some precision ∧
      precision.toNat = accrued.scale := by
  obtain ⟨accrued, credit, computed⟩ := bounded.exists_updatedPool proper headroom later
  have accrual := accrual_of_updatedPool computed
  have updated : Bounded supply first later accrued members
      (log ++ creditEvents poolId credit) := bounded.accrue proper le accrual
  obtain ⟨precision, power, unit⟩ := updated.exists_precision
  exact ⟨accrued, credit, precision, computed, accrual.totalStaked_eq, updated, power, unit⟩

theorem Bounded.exists_pending (bounded : Bounded supply first now pool members log)
    (proper : first.startTime < first.endTime) (headroom : Headroom supply first)
    {precision : U256} (unit : precision.toNat = pool.scale) {key : KeyPrefix}
    {user : UserInfo} (isMember : members.user key = user) :
    ∃ product quotient pending,
      user.amount.checkedMul pool.accTokenPerShare = some product ∧
      product.checkedDiv precision = some quotient ∧
      quotient.checkedSub user.rewardDebt = some pending ∧
      pending.toNat ≤ pool.earned user.amount := by
  have staked := members.amount_le_staked key
  have debt := bounded.sound.debts key
  have total := bounded.sound.staked
  have room := bounded.staked
  rw [isMember] at staked debt
  obtain ⟨product, quotient, mul, div, earned⟩ :=
    exists_earned unit (bounded.stake_fits proper headroom (le_trans staked (by omega)))
  obtain ⟨pending, owed, pendingEq⟩ := U256.exists_checkedSub (earned ▸ debt)
  exact ⟨product, quotient, pending, mul, div, owed, by omega⟩

end Defined

/-! ## Withdrawals and deposits -/

section Failures

variable {E : Type} {tokens : TokenCall → E → E → Prop} {context : Context}
  {poolId : UInt64} {w : StakeWorld E} {failure : Failure} {pending amount : U256}
  {rewardToken stakingToken : ContractHash}

/-- Paying a withdrawal fails only when the sum of reward and principal does not
fit. -/
theorem fails_payWithdraw {u : StakeWorld E}
    (sumFits : pending.toNat + amount.toNat < 2 ^ 256) :
    ¬ Fails (Quiet tokens)
      (payWithdraw context pending amount rewardToken stakingToken) u failure := by
  intro fails
  obtain ⟨total, sum, -⟩ := U256.exists_checkedAdd sumFits
  unfold payWithdraw at fails
  split at fails
  · exact fails_request fails
  · rw [fails_arith_bind, sum] at fails
    simp [fails_request] at fails
  · simp [fails_request_bind, fails_request] at fails

/-- Paying a deposit cannot fail once the contract knows its own hash. -/
theorem fails_payDeposit {selfHash : ContractPackageHash}
    (self : w.storage.selfContractHash = some selfHash) :
    ¬ Fails (Quiet tokens)
      (payDeposit context pending amount rewardToken stakingToken) w failure := by
  intro fails
  have known : selfContractHash w.storage = .ok selfHash := selfContractHash_eq_ok.mpr self
  by_cases zero : pending.toNat = 0
  · simp only [payDeposit_of_zero zero, fails_reads_bind, known, reduceCtorEq, false_or,
      Except.ok.injEq, exists_eq_left'] at fails
    exact fails_request fails
  · by_cases equal : rewardToken = stakingToken
    · by_cases greater : amount.toNat < pending.toNat
      · obtain ⟨net, difference, -⟩ := U256.exists_checkedSub (le_of_lt greater)
        simp only [payDeposit_of_lt equal greater, fails_arith_bind, difference,
          reduceCtorEq, false_and, false_or, Option.some.injEq, exists_eq_left'] at fails
        exact fails_request fails
      · obtain ⟨net, difference, -⟩ := U256.exists_checkedSub (Nat.not_lt.mp greater)
        simp only [payDeposit_of_le equal zero (Nat.not_lt.mp greater), fails_reads_bind,
          fails_arith_bind, known, difference, reduceCtorEq, false_and, false_or,
          Except.ok.injEq, Option.some.injEq, exists_eq_left'] at fails
        exact fails_request fails
    · rw [payDeposit_of_ne equal zero] at fails
      obtain ⟨_, ⟨e, -, rfl⟩, later⟩ := fails_request_bind.mp fails
      rcases fails_reads_bind.mp later with unknown | ⟨spender, -, impossible⟩
      · simp [known] at unknown
      · exact fails_request impossible

theorem fails_write {book : Book} (represents : Represents w.storage book)
    {pool : StakePool} {user : UserInfo}
    (valid : poolId ≤ book.index) {f : Unit → Contract Unit}
    (records : ∀ w' : StakeWorld E, ¬ Fails (Quiet tokens) (f ()) w' failure) :
    ¬ Fails (Quiet tokens) (Prog.updates (updateStorage context pool user poolId) >>= f)
      w failure := by
  intro fails
  obtain ⟨storage', written⟩ := represents.exists_updateStorage context pool user valid
  rw [fails_updates_bind, written] at fails
  rcases fails with impossible | ⟨storage, same, later⟩
  · cases impossible
  · exact records _ later

variable {supply : Nat} {first pool : StakePool} {now : UInt64} {book : Book}
  {log : List Event}

/-- With headroom a withdrawal of at most the recorded stake cannot fail. -/
theorem withdraw_completes (represents : Represents w.storage book)
    (valid : poolId ≤ book.index) (found : book.pool poolId = some pool)
    (bounded : Bounded supply first now pool (book.members poolId) log)
    (proper : first.startTime < first.endTime) (headroom : Headroom supply first)
    (le : now ≤ context.blocktime) (positive : 0 < amount.toNat)
    (enough : amount.toNat ≤ (book.user (recordKey context.caller poolId)).amount.toNat) :
    ¬ Fails (Quiet tokens) (withdraw context amount poolId) w failure := by
  obtain ⟨accrued, credit, precision, computed, -, updated, power, unit⟩ :=
    bounded.exists_accrued proper headroom poolId le
  obtain ⟨user, isUser⟩ : ∃ user, book.user (recordKey context.caller poolId) = user :=
    ⟨_, rfl⟩
  have isMember := isUser
  rw [recordKey, Book.user_eq] at isMember
  have staked := (book.members poolId).amount_le_staked context.caller.keyPrefix
  have total := updated.sound.staked
  have room := updated.staked
  rw [isUser] at enough
  rw [isMember] at staked
  have readPool := represents.getPool_eq_ok.mpr ⟨valid, found⟩
  have readUser := represents.getUserInfoForPool_eq_ok.mpr ⟨valid, isUser⟩
  obtain ⟨newAmount, remains, remainsEq⟩ := U256.exists_checkedSub enough
  obtain ⟨product, quotient, pending, mul, div, owed, pendingLe⟩ :=
    updated.exists_pending proper headroom unit isMember
  obtain ⟨totalStaked, taken, -⟩ : ∃ c, accrued.totalStaked.checkedSub amount = some c ∧
      c.toNat = accrued.totalStaked.toNat - amount.toNat :=
    U256.exists_checkedSub (by omega)
  obtain ⟨newProduct, rewardDebt, newMul, newDiv, -⟩ : ∃ product quotient,
      newAmount.checkedMul accrued.accTokenPerShare = some product ∧
      product.checkedDiv precision = some quotient ∧
      quotient.toNat = accrued.earned newAmount :=
    exists_earned unit (updated.stake_fits proper headroom (by omega))
  intro fails
  simp only [withdraw, fails_revertIf_bind, fails_reads_bind, fails_updatePool_bind,
    fails_arith_bind, readUser, readPool, computed, remains, power, mul, div, owed, taken,
    newMul, newDiv, U256.isZero_iff, reduceCtorEq, false_and, false_or, Except.ok.injEq,
    Option.some.injEq, Prod.mk.injEq, and_assoc, exists_and_left, exists_eq_left'] at fails
  rcases fails with ⟨nothing, -⟩ | ⟨-, ⟨nothing, -⟩ | ⟨-, settlement⟩⟩
  · omega
  · omega
  rcases fails_unit_bind.mp settlement with pays | ⟨u, paid, written⟩
  · exact fails_payWithdraw (updated.sum_fits proper headroom (le_trans staked (by omega))
      (by omega) pendingLe) pays
  · obtain ⟨_, _, chain⟩ := runs_payWithdraw paid
    obtain ⟨e, -, rfl⟩ := chain.quiet
    refine fails_write ?_ valid (fun w' records => ?_) written
    · exact represents
    · simp [fails_record_bind, fails_record] at records

private theorem firstDeposit_completes {newAmount totalStaked product precision
      rewardDebt : U256}
    (represents : Represents w.storage book) (valid : poolId ≤ book.index)
    (added : pool.totalStaked.checkedAdd amount = some totalStaked)
    (mul : newAmount.checkedMul pool.accTokenPerShare = some product)
    (power : U256.ten.checkedPow (.ofUInt64 pool.precision) = some precision)
    (div : product.checkedDiv precision = some rewardDebt) :
    ¬ Fails (Quiet tokens) (firstDeposit context amount newAmount pool poolId) w
      failure := by
  intro fails
  simp only [firstDeposit, fails_arith_bind, fails_reads_bind, added, mul, power, div,
    represents.selfContractHash_eq, reduceCtorEq, false_and, false_or, Option.some.injEq,
    Except.ok.injEq, exists_eq_left'] at fails
  obtain ⟨_, ⟨e, -, rfl⟩, written⟩ := fails_request_bind.mp fails
  refine fails_write ?_ valid (fun w' records => ?_) written
  · exact represents
  · exact fails_record records

private theorem topUpDeposit_completes {user : UserInfo} {newAmount totalStaked product
      quotient pending newProduct precision rewardDebt : U256}
    (represents : Represents w.storage book) (valid : poolId ≤ book.index)
    (power : U256.ten.checkedPow (.ofUInt64 pool.precision) = some precision)
    (mul : user.amount.checkedMul pool.accTokenPerShare = some product)
    (div : product.checkedDiv precision = some quotient)
    (owed : quotient.checkedSub user.rewardDebt = some pending)
    (added : pool.totalStaked.checkedAdd amount = some totalStaked)
    (newMul : newAmount.checkedMul pool.accTokenPerShare = some newProduct)
    (newDiv : newProduct.checkedDiv precision = some rewardDebt) :
    ¬ Fails (Quiet tokens) (topUpDeposit context amount newAmount pool user poolId) w
      failure := by
  intro fails
  simp only [topUpDeposit, fails_arith_bind, power, mul, div, owed, added, newMul, newDiv,
    reduceCtorEq, false_and, false_or, Option.some.injEq, exists_eq_left'] at fails
  rcases fails_unit_bind.mp fails with pays | ⟨u, paid, written⟩
  · exact fails_payDeposit represents.selfHash pays
  · have keepsSelf : ∀ c u, Quiet tokens c w u →
        u.storage.selfContractHash = w.storage.selfContractHash := by
      intro c u quiet
      obtain ⟨e, -, rfl⟩ := quiet
      rfl
    obtain ⟨_, _, chain⟩ := runs_payDeposit keepsSelf paid represents.selfHash
    obtain ⟨e, -, rfl⟩ := chain.quiet
    refine fails_write ?_ valid (fun w' records => ?_) written
    · exact represents
    · simp [fails_record_bind, fails_record] at records

/-- With headroom a deposit that keeps the total stake within the supply cannot
fail before the end of the pool. -/
theorem deposit_completes (represents : Represents w.storage book)
    (valid : poolId ≤ book.index) (found : book.pool poolId = some pool)
    (bounded : Bounded supply first now pool (book.members poolId) log)
    (proper : first.startTime < first.endTime) (headroom : Headroom supply first)
    (le : now ≤ context.blocktime) (positive : 0 < amount.toNat)
    (inTime : context.blocktime ≤ first.endTime)
    (room : pool.totalStaked.toNat + amount.toNat ≤ supply) :
    ¬ Fails (Quiet tokens) (deposit context amount poolId) w failure := by
  obtain ⟨accrued, credit, precision, computed, sameStaked, updated, power, unit⟩ :=
    bounded.exists_accrued proper headroom poolId le
  obtain ⟨user, isUser⟩ : ∃ user, book.user (recordKey context.caller poolId) = user :=
    ⟨_, rfl⟩
  have isMember := isUser
  rw [recordKey, Book.user_eq] at isMember
  have staked := (book.members poolId).amount_le_staked context.caller.keyPrefix
  have total := updated.sound.staked
  rw [isMember] at staked
  rw [← sameStaked] at room
  have fits := updated.supply_lt headroom
  have readPool := represents.getPool_eq_ok.mpr ⟨valid, found⟩
  have readUser := represents.getUserInfoForPool_eq_ok.mpr ⟨valid, isUser⟩
  have opened : ¬ accrued.endTime < context.blocktime := by
    rw [updated.endTime]
    exact UInt64.not_lt.mpr inTime
  obtain ⟨newAmount, sum, sumEq⟩ : ∃ c, amount.checkedAdd user.amount = some c ∧
      c.toNat = amount.toNat + user.amount.toNat :=
    U256.exists_checkedAdd (by omega)
  obtain ⟨totalStaked, added, -⟩ : ∃ c, accrued.totalStaked.checkedAdd amount = some c ∧
      c.toNat = accrued.totalStaked.toNat + amount.toNat :=
    U256.exists_checkedAdd (by omega)
  obtain ⟨newProduct, rewardDebt, newMul, newDiv, -⟩ : ∃ product quotient,
      newAmount.checkedMul accrued.accTokenPerShare = some product ∧
      product.checkedDiv precision = some quotient ∧
      quotient.toNat = accrued.earned newAmount :=
    exists_earned unit (updated.stake_fits proper headroom (by omega))
  intro fails
  simp only [deposit, fails_revertIf_bind, fails_reads_bind, fails_updatePool_bind,
    fails_arith_bind, readUser, readPool, computed, sum, opened, U256.isZero_iff,
    reduceCtorEq, false_and, false_or, not_false_eq_true, true_and, Except.ok.injEq,
    Option.some.injEq, Prod.mk.injEq, and_assoc, exists_and_left, exists_eq_left'] at fails
  rcases fails with ⟨nothing, -⟩ | ⟨-, settlement⟩
  · omega
  split at settlement
  · refine firstDeposit_completes ?_ valid added newMul power newDiv settlement
    exact represents
  · obtain ⟨product, quotient, pending, mul, div, owed, -⟩ :=
      updated.exists_pending proper headroom unit isMember
    refine topUpDeposit_completes ?_ valid power mul div owed added newMul newDiv settlement
    exact represents

end Failures

section Runs

variable {E : Type} {around : Surroundings E} {admin : AccountHash} {start : UInt64}
variable {outside : E} {moment : Moment E} {poolId : UInt64} {first : StakePool}

/-- A pool that is never stopped and whose total stake stays within a supply that
leaves headroom: whatever has happened, no withdrawal of at most a recorded stake
can fail in the contract, and neither can a deposit until the end of the pool. -/
theorem settlements_complete {supply : Nat} {pool : StakePool} {context : Context}
    {user : UserInfo} {amount : U256}
    (proper : first.startTime < first.endTime)
    (window : (first.endTime.toNat - first.startTime.toNat) * first.totalReward.toNat <
      2 ^ 256)
    (scaled : supply * (10 ^ first.precision.toNat * first.totalReward.toNat) < 2 ^ 256)
    (run : Run around (withinSupply supply poolId) (installed admin start outside) moment)
    (once : createdUnder poolId moment.world.log = [first])
    (readPool : getPool poolId moment.world.storage = .ok pool)
    (readUser : getUserInfoForPool context poolId moment.world.storage = .ok user)
    (later : moment.now ≤ context.blocktime) (positive : 0 < amount.toNat) :
    (amount.toNat ≤ user.amount.toNat → ∀ failure,
        ¬ Fails (Quiet around.answer) (withdraw context amount poolId) moment.world
          failure) ∧
      (context.blocktime ≤ pool.endTime →
        pool.totalStaked.toNat + amount.toNat ≤ supply → ∀ failure,
        ¬ Fails (Quiet around.answer) (deposit context amount poolId) moment.world
          failure) := by
  obtain ⟨book, pool', represents, found, bounded⟩ :=
    run.pool (bounded_invariant supply poolId proper) (fun _ new => bounded_of_new new) once
  obtain ⟨valid, found'⟩ := represents.getPool_eq_ok.mp readPool
  rw [found, Option.some.injEq] at found'
  subst found'
  obtain ⟨-, rfl⟩ := represents.getUserInfoForPool_eq_ok.mp readUser
  have headroom : Headroom supply first := ⟨window, scaled⟩
  constructor
  · intro enough failure
    exact withdraw_completes represents valid found bounded proper headroom later positive
      enough
  · intro inTime room failure
    rw [bounded.endTime] at inTime
    exact deposit_completes represents valid found bounded proper headroom later positive
      inTime room

end Runs

section Sample

open Sample

/-- A ledger of one token supply: the owner has the rewards, one staker a unit. -/
def vault (rewards : Nat) : Erc20Ledger where
  balance := fun _ holder =>
    if holder = .account owner then rewards
    else if holder = .account (staker 1) then 1 else 0
  allowance := fun _ _ _ => 2 ^ 256 - 1

/-- A pool of the finest precision with a reward of `2 ^ 200`, and one unit staked
in it. -/
def fine : Moment Erc20Ledger :=
  after (neverStops 0)
    [setUp, (10, owner, .addPool tokenA tokenA 100 200 36 ⟨2 ^ 200, by decide⟩),
      (20, staker 1, .deposit (units 1) 0)]
    (installed owner 0 (vault (2 ^ 200))) (by decide +kernel)

private theorem run_fine :
    Run around (neverStops 0) (installed owner 0 (vault (2 ^ 200))) fine :=
  run_after _

private theorem panics_fine :
    Fails (Quiet around.answer)
      (withdraw { caller := staker 1, blocktime := 150 } (units 1) 0) fine.world .panic :=
  fails_of_failure (fun _ _ _ => quiet_of_quietly)
    (show (withdraw { caller := staker 1, blocktime := 150 } (units 1) 0).failure
      (quietly (Erc20Ledger.answer package)) fine.world = some .panic by decide +kernel)

def roomy : Moment Erc20Ledger :=
  after (withinSupply 1000000 0)
    [setUp, (10, owner, .addPool tokenA tokenA 100 200 18 (units 1000)),
      (20, staker 1, .deposit (units 10) 0), (150, staker 2, .deposit (units 30) 0)]
    opening (by decide +kernel)

private theorem run_roomy :
    Run around (withinSupply 1000000 0) opening roomy :=
  run_after _

theorem settlements_complete_roomy :
    (∀ failure, ¬ Fails (Quiet around.answer)
        (withdraw { caller := staker 1, blocktime := 170 } (units 4) 0) roomy.world
          failure) ∧
      ∀ failure, ¬ Fails (Quiet around.answer)
        (deposit { caller := staker 1, blocktime := 170 } (units 4) 0) roomy.world
          failure := by
  have facts : createdUnder 0 roomy.world.log = [usual] ∧ roomy.now ≤ 170 ∧
      getUserInfoForPool { caller := staker 1, blocktime := 170 } 0 roomy.world.storage =
        .ok { amount := units 10, rewardDebt := U256.zero } := by
    decide +kernel
  obtain ⟨once, later, readUser⟩ := facts
  have complete := settlements_complete (by decide) (by decide +kernel)
    (by decide +kernel) run_roomy once (read_poolOf (by decide +kernel)) readUser later
    (show 0 < (units 4).toNat by decide)
  exact ⟨complete.1 (by decide), complete.2 (by decide +kernel) (by decide +kernel)⟩

/-- The checked products can overflow although every amount is within the supply
of the token. -/
theorem settlements_overflow :
    ¬ ∀ moment,
      Run around (neverStops 0) (installed owner 0 (vault (2 ^ 200))) moment →
      ∀ first : StakePool, first.startTime < first.endTime →
      createdUnder 0 moment.world.log = [first] →
      ∀ context user (amount : U256), moment.now ≤ context.blocktime →
      getUserInfoForPool context 0 moment.world.storage = .ok user →
      0 < amount.toNat → amount.toNat ≤ user.amount.toNat →
        ¬ Fails (Quiet around.answer) (withdraw context amount 0) moment.world .panic := by
  intro claim
  refine claim fine run_fine
    { firstPool 100 200 ⟨2 ^ 200, by decide⟩ with precision := 36 } (by decide)
    (by decide +kernel) { caller := staker 1, blocktime := 150 }
    { amount := units 1, rewardDebt := U256.zero } (units 1) (by decide +kernel)
    (by decide +kernel) (by decide) (by decide) panics_fine

end Sample

end CasperContracts.Staking
