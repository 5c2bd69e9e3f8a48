import Mathlib.Algebra.Order.Field.Rat
import Mathlib.Tactic.Linarith
import CasperContracts.Staking.Emission

/-!
# Distribution

When a pool has stake throughout its reward window and everyone has left in the
end, every second of the window has been credited exactly once.  The rewards
paid then fall short of the total reward only by the rounding of the credits
and of the settlements.
-/

namespace CasperContracts.Staking

open CasperContracts.Basis Host Prog

/-! ## What the credits amount to -/

def secondsIn : List Event → Nat :=
  sumOver fun event =>
    match event with
    | .credited _ credit => credit.unlocked.toNat
    | _ => 0

/-- The updates that credited a part of the window. -/
def creditsIn : List Event → Nat :=
  sumOver fun event =>
    match event with
    | .credited _ credit => if credit.unlocked.toNat = 0 then 0 else 1
    | _ => 0

/-- The total stakes these updates divided by. -/
def creditedStakesIn : List Event → Nat :=
  sumOver fun event =>
    match event with
    | .credited _ credit =>
        if credit.unlocked.toNat = 0 then 0 else credit.totalStaked.toNat
    | _ => 0

/-- What a log has credited, before and after rounding. -/
structure Metered (scale reward window : Nat) (log : List Event) : Prop where
  bound : scale * reward * secondsIn log ≤
    (creditedIn log + scale * creditsIn log + creditedStakesIn log) * window

/-- A credit loses less than one unit of the reward and one unit of each stake. -/
theorem CreditOf.le_credited {now : UInt64} {pool : StakePool} {credit : Credit}
    (numbers : CreditOf now pool credit) (staked : pool.totalStaked.toNat ≠ 0) :
    pool.scale * pool.totalReward.toNat * credit.unlocked.toNat ≤
      (credit.share.toNat * credit.totalStaked.toNat +
          pool.scale * (if credit.unlocked.toNat = 0 then 0 else 1) +
          if credit.unlocked.toNat = 0 then 0 else credit.totalStaked.toNat) *
        (pool.endTime - pool.startTime).toNat := by
  by_cases nothing : credit.unlocked.toNat = 0
  · simp [nothing]
  · have shared : credit.rewards.toNat * pool.scale ≤
        credit.share.toNat * credit.totalStaked.toNat + credit.totalStaked.toNat := by
      rw [numbers.share, numbers.totalStaked]
      have division := Nat.div_add_mod (credit.rewards.toNat * pool.scale)
        pool.totalStaked.toNat
      have small := Nat.mod_lt (credit.rewards.toNat * pool.scale)
        (Nat.pos_of_ne_zero staked)
      rw [Nat.mul_comm] at division
      omega
    have rewarded : credit.unlocked.toNat * pool.totalReward.toNat ≤
        (credit.rewards.toNat + 1) * (pool.endTime - pool.startTime).toNat := by
      rw [numbers.rewards, Nat.add_mul, Nat.one_mul]
      have division := Nat.div_add_mod (credit.unlocked.toNat * pool.totalReward.toNat)
        (pool.endTime - pool.startTime).toNat
      have small := Nat.mod_lt (credit.unlocked.toNat * pool.totalReward.toNat)
        numbers.window
      rw [Nat.mul_comm] at division
      omega
    rw [if_neg nothing, if_neg nothing]
    calc pool.scale * pool.totalReward.toNat * credit.unlocked.toNat
        = pool.scale * (credit.unlocked.toNat * pool.totalReward.toNat) := by ac_rfl
      _ ≤ pool.scale *
            ((credit.rewards.toNat + 1) * (pool.endTime - pool.startTime).toNat) :=
          Nat.mul_le_mul_left _ rewarded
      _ = (credit.rewards.toNat * pool.scale + pool.scale * 1) *
            (pool.endTime - pool.startTime).toNat := by
          rw [Nat.mul_one, ← Nat.mul_assoc, Nat.mul_add, Nat.mul_one,
            Nat.mul_comm pool.scale]
      _ ≤ _ := Nat.mul_le_mul_right _ (by omega)

/-! ## The meter of a pool -/

/-- A pool that is never stopped, with the seconds and the dust of its credits. -/
structure Measured (first : StakePool) (now : UInt64) (pool : StakePool)
    (log : List Event) : Prop where
  terms : pool.terms = first.terms
  endTime : pool.endTime = first.endTime
  last_le : pool.lastRewardTimestamp.toNat ≤ now.toNat
  metered : Metered first.scale first.totalReward.toNat
    (first.endTime.toNat - first.startTime.toNat) log

/-- Every second of the window up to the last update has been credited. -/
def UpToDate (first pool : StakePool) (log : List Event) : Prop :=
  secondsIn log + first.startTime.toNat =
    max first.startTime.toNat (min pool.lastRewardTimestamp.toNat first.endTime.toNat)

section Meter

variable {first pool accrued : StakePool} {now later poolId : UInt64}
  {log events : List Event} {credit : Option Credit}

theorem Measured.wait (measured : Measured first now pool log) (le : now ≤ later) :
    Measured first later pool log where
  terms := measured.terms
  endTime := measured.endTime
  last_le := le_trans measured.last_le (UInt64.le_iff_toNat_le.mp le)
  metered := measured.metered

theorem Measured.accrue (poolId : UInt64) (proper : first.startTime < first.endTime)
    (measured : Measured first now pool log) (le : now ≤ later)
    (accrual : Accrual later pool accrued credit) :
    Measured first later accrued (log ++ creditEvents poolId credit) := by
  rw [UInt64.lt_iff_toNat_lt] at proper
  cases accrual with
  | kept => simpa [creditEvents] using measured.wait le
  | idle =>
      refine ⟨measured.terms, measured.endTime, le_refl _, ?_⟩
      simpa [creditEvents] using measured.metered
  | @credited credit acc reaches numbers sum =>
      refine ⟨measured.terms, measured.endTime, le_refl _, ⟨?_⟩⟩
      have more := numbers.le_credited reaches.2.1
      have sameStart : pool.startTime = first.startTime :=
        congrArg Terms.startTime measured.terms
      have sameReward : pool.totalReward = first.totalReward :=
        congrArg Terms.totalReward measured.terms
      have sameScale : pool.scale = first.scale := by
        have samePrecision : pool.precision = first.precision :=
          congrArg Terms.precision measured.terms
        rw [StakePool.scale, StakePool.scale, samePrecision]
      rw [sameScale, sameReward, CreditOf.window_toNat
        (by rw [measured.endTime, sameStart]; exact le_of_lt proper),
        measured.endTime, sameStart] at more
      have before := measured.metered.bound
      have seconds : secondsIn (log ++ creditEvents poolId (some credit)) =
          secondsIn log + credit.unlocked.toNat :=
        sumOver_credited _ _ _ _
      have amounts : creditedIn (log ++ creditEvents poolId (some credit)) =
          creditedIn log + credit.share.toNat * credit.totalStaked.toNat :=
        sumOver_credited _ _ _ _
      have count : creditsIn (log ++ creditEvents poolId (some credit)) =
          creditsIn log + if credit.unlocked.toNat = 0 then 0 else 1 :=
        sumOver_credited _ _ _ _
      have stakes : creditedStakesIn (log ++ creditEvents poolId (some credit)) =
          creditedStakesIn log +
            if credit.unlocked.toNat = 0 then 0 else credit.totalStaked.toNat :=
        sumOver_credited _ _ _ _
      rw [seconds, amounts, count, stakes, Nat.mul_add, Nat.mul_add]
      refine le_trans (Nat.add_le_add before more) (le_of_eq ?_)
      rw [← Nat.add_mul]
      congr 1
      omega

/-- While there is stake, or outside of the window, an update misses no second. -/
theorem UpToDate.accrue (poolId : UInt64) (proper : first.startTime < first.endTime)
    (measured : Measured first now pool log) (accrual : Accrual later pool accrued credit)
    (counts : pool.totalStaked.toNat ≠ 0 ∨
      first.endTime.toNat ≤ pool.lastRewardTimestamp.toNat ∨
      later.toNat ≤ first.startTime.toNat)
    (upToDate : UpToDate first pool log) :
    UpToDate first accrued (log ++ creditEvents poolId credit) := by
  rw [UInt64.lt_iff_toNat_lt] at proper
  have start : pool.startTime = first.startTime :=
    congrArg Terms.startTime measured.terms
  unfold UpToDate at upToDate ⊢
  cases accrual with
  | kept => simpa [creditEvents] using upToDate
  | idle isLater nothing =>
      rw [UInt64.lt_iff_toNat_lt] at isLater
      rw [start, UInt64.lt_iff_toNat_lt] at nothing
      simp only [creditEvents, List.append_nil]
      omega
  | @credited credit acc reaches numbers sum =>
      have seconds : secondsIn (log ++ creditEvents poolId (some credit)) =
          secondsIn log + credit.unlocked.toNat :=
        sumOver_credited _ _ _ _
      have unlocked := numbers.unlocked_toNat reaches
        (by rw [measured.endTime, start]; exact le_of_lt proper)
      rw [start, measured.endTime] at unlocked
      obtain ⟨isLater, -, started, notEnded⟩ := reaches
      rw [UInt64.lt_iff_toNat_lt] at isLater
      rw [start, UInt64.le_iff_toNat_le] at started
      rw [measured.endTime, UInt64.le_iff_toNat_le] at notEnded
      rw [seconds]
      change _ = max first.startTime.toNat (min later.toNat first.endTime.toNat)
      omega

theorem last_of_accrual (measured : Measured first now pool log)
    (accrual : Accrual later pool accrued credit)
    (elapsed : first.endTime.toNat ≤ later.toNat) :
    first.endTime.toNat ≤ accrued.lastRewardTimestamp.toNat := by
  have finish := congrArg UInt64.toNat measured.endTime
  cases accrual with
  | kept settled =>
      rcases settled with recent | ⟨-, -, -, ended⟩
      · rw [UInt64.le_iff_toNat_le] at recent
        omega
      · rw [UInt64.lt_iff_toNat_lt] at ended
        omega
  | idle => exact elapsed
  | credited => exact elapsed

end Meter

/-! ## Changes without stops and emergencies -/

/-- The pool is neither stopped nor left in an emergency. -/
def lasting (poolId : UInt64) (_ : Context) (call : Call) (_ : Storage) : Prop :=
  call ≠ .stopReward poolId ∧ call ≠ .emergencyWithdraw poolId

def HasStake (poolId : UInt64) (storage : Storage) : Prop :=
  match getPool poolId storage with
  | .ok pool => pool.totalStaked.toNat ≠ 0
  | .error _ => False

theorem HasStake.exists_pool {poolId : UInt64} {storage : Storage}
    (hasStake : HasStake poolId storage) :
    ∃ pool, getPool poolId storage = .ok pool ∧ pool.totalStaked.toNat ≠ 0 := by
  cases read : getPool poolId storage with
  | error error => simp [HasStake, read] at hasStake
  | ok pool => exact ⟨pool, rfl, by simpa [HasStake, read] using hasStake⟩

/-- Every call finds the pool with stake. -/
def staying (poolId : UInt64) (context : Context) (call : Call) (storage : Storage) :
    Prop :=
  lasting poolId context call storage ∧ HasStake poolId storage

instance (poolId : UInt64) (context : Context) (call : Call) (storage : Storage) :
    Decidable (lasting poolId context call storage) :=
  inferInstanceAs (Decidable (_ ∧ _))

instance (poolId : UInt64) (storage : Storage) : Decidable (HasStake poolId storage) :=
  match read : getPool poolId storage with
  | .ok pool => decidable_of_iff (pool.totalStaked.toNat ≠ 0) (by simp [HasStake, read])
  | .error _ => .isFalse (by simp [HasStake, read])

instance (poolId : UInt64) (context : Context) (call : Call) (storage : Storage) :
    Decidable (staying poolId context call storage) :=
  inferInstanceAs (Decidable (_ ∧ _))

/-- What holds of a pool as long as it is neither stopped nor left in an
emergency. -/
structure Steady (first : StakePool) (now : UInt64) (pool : StakePool)
    (members : Members) (log : List Event) : Prop where
  sound : Sound first pool members
  distributed : Tally.Distributed first.scale (tallyOf pool members log)
  measured : Measured first now pool log

section Change

variable {context : Context} {selfHash : ContractPackageHash} {poolId now : UInt64}
  {first pool pool' accrued : StakePool} {members members' : Members} {call : Call}
  {requests : List TokenCall} {log events : List Event} {user user' : UserInfo}

theorem Settled.no_credit
    (settled : Settled context selfHash poolId accrued user user' call requests events) :
    secondsIn events = 0 ∧ creditsIn events = 0 ∧ creditedStakesIn events = 0 := by
  cases settled <;> exact ⟨rfl, rfl, rfl⟩

theorem PoolChange.steady (proper : first.startTime < first.endTime)
    (le : now ≤ context.blocktime)
    (lasts : call ≠ .stopReward poolId ∧ call ≠ .emergencyWithdraw poolId)
    (change : PoolChange context selfHash poolId pool members call events pool' members')
    (steady : Steady first now pool members log) :
    Steady first context.blocktime pool' members' (log ++ events) where
  sound := change.sound steady.sound
  distributed := change.distributed steady.sound lasts.2 steady.distributed
  measured := by
    cases change with
    | settle accrual settled debt staked =>
        obtain ⟨seconds, credits, stakes⟩ := settled.no_credit
        have updated := steady.measured.accrue poolId proper le accrual
        refine ⟨updated.terms, updated.endTime, updated.last_le, ⟨?_⟩⟩
        have bound := updated.metered.bound
        simp only [secondsIn, creditsIn, creditedStakesIn, creditedIn, sumOver_append]
          at bound seconds credits stakes ⊢
        have amounts := settled.creditedIn_eq
        simp only [creditedIn] at amounts
        simpa [seconds, credits, stakes, amounts] using bound
    | emergencyWithdraw => exact absurd rfl lasts.2
    | stopReward => exact absurd rfl lasts.1

theorem PoolChange.upToDate (proper : first.startTime < first.endTime)
    (lasts : call ≠ .stopReward poolId ∧ call ≠ .emergencyWithdraw poolId)
    (change : PoolChange context selfHash poolId pool members call events pool' members')
    (measured : Measured first now pool log)
    (counts : pool.totalStaked.toNat ≠ 0 ∨
      first.endTime.toNat ≤ pool.lastRewardTimestamp.toNat ∨
      context.blocktime.toNat ≤ first.startTime.toNat)
    (upToDate : UpToDate first pool log) : UpToDate first pool' (log ++ events) := by
  cases change with
  | settle accrual settled debt staked =>
      have updated := upToDate.accrue poolId proper measured accrual counts
      have seconds := settled.no_credit.1
      unfold UpToDate secondsIn at updated ⊢
      rw [secondsIn] at seconds
      rw [← List.append_assoc, sumOver_append, seconds]
      exact updated
  | emergencyWithdraw => exact absurd rfl lasts.2
  | stopReward => exact absurd rfl lasts.1

theorem PoolChange.last_ge
    (lasts : call ≠ .stopReward poolId ∧ call ≠ .emergencyWithdraw poolId)
    (change : PoolChange context selfHash poolId pool members call events pool' members')
    (measured : Measured first now pool log)
    (elapsed : first.endTime.toNat ≤ context.blocktime.toNat) :
    first.endTime.toNat ≤ pool'.lastRewardTimestamp.toNat := by
  cases change with
  | settle accrual =>
      have reached := last_of_accrual measured accrual elapsed
      exact reached
  | emergencyWithdraw => exact absurd rfl lasts.2
  | stopReward => exact absurd rfl lasts.1

end Change

/-! ## The three parts of a run -/

section Parts

variable {poolId : UInt64} {first : StakePool}

theorem arriving_invariant (proper : first.startTime < first.endTime) :
    PoolInvariant (lasting poolId) poolId fun now pool members log =>
      Steady first now pool members log ∧
        (now ≤ first.startTime → UpToDate first pool log) where
  wait := by
    intro now later pool members log kept le
    obtain ⟨steady, early⟩ := kept
    exact ⟨⟨steady.sound, steady.distributed, steady.measured.wait le⟩,
      fun notStarted => early (UInt64.le_trans le notStarted)⟩
  change := by
    intro now pool members log context call storage selfHash events pool' members' kept
        le read lasts change
    obtain ⟨steady, early⟩ := kept
    refine ⟨change.steady proper le lasts steady, fun notStarted => ?_⟩
    exact change.upToDate proper lasts steady.measured
      (.inr (.inr (UInt64.le_iff_toNat_le.mp notStarted)))
      (early (UInt64.le_trans le notStarted))

theorem staying_invariant (proper : first.startTime < first.endTime) :
    PoolInvariant (staying poolId) poolId fun now pool members log =>
      Steady first now pool members log ∧ UpToDate first pool log where
  wait := by
    intro now later pool members log kept le
    obtain ⟨steady, upToDate⟩ := kept
    exact ⟨⟨steady.sound, steady.distributed, steady.measured.wait le⟩, upToDate⟩
  change := by
    intro now pool members log context call storage selfHash events pool' members' kept
        le read stays change
    obtain ⟨steady, upToDate⟩ := kept
    obtain ⟨lasts, hasStake⟩ := stays
    obtain ⟨_, readAgain, staked⟩ := hasStake.exists_pool
    obtain rfl := Except.ok.inj (read.symm.trans readAgain)
    exact ⟨change.steady proper le lasts steady,
      change.upToDate proper lasts steady.measured (.inl staked) upToDate⟩

theorem leaving_invariant (proper : first.startTime < first.endTime) :
    PoolInvariant (lasting poolId) poolId fun now pool members log =>
      Steady first now pool members log ∧ first.endTime ≤ now ∧
        UpToDate first pool log ∧
        (pool.totalStaked.toNat ≠ 0 ∨
          first.endTime.toNat ≤ pool.lastRewardTimestamp.toNat) where
  wait := by
    intro now later pool members log kept le
    obtain ⟨steady, elapsed, upToDate, counts⟩ := kept
    exact ⟨⟨steady.sound, steady.distributed, steady.measured.wait le⟩,
      UInt64.le_trans elapsed le, upToDate, counts⟩
  change := by
    intro now pool members log context call storage selfHash events pool' members' kept
        le read lasts change
    obtain ⟨steady, elapsed, upToDate, counts⟩ := kept
    have later := UInt64.le_trans elapsed le
    refine ⟨change.steady proper le lasts steady, later, ?_, .inr ?_⟩
    · refine change.upToDate proper lasts steady.measured ?_ upToDate
      rcases counts with staked | ended
      · exact .inl staked
      · exact .inr (.inl ended)
    · exact change.last_ge lasts steady.measured (UInt64.le_iff_toNat_le.mp later)

end Parts

/-! ## The whole reward -/

section Runs

variable {E : Type} {around : Surroundings E} {admin : AccountHash} {start : UInt64}
variable {outside : E} {poolId : UInt64} {first : StakePool}

private theorem steady_of_new {context : Context}
    (new : NewPool context poolId first) :
    Steady first context.blocktime first ∅ [.poolAdded first] where
  sound := .of_new new
  distributed := distributed_of_new first
  measured := {
    terms := rfl
    endTime := rfl
    last_le := by simp [new.last]
    metered := ⟨by simp [secondsIn, sumOver]⟩ }

private theorem upToDate_of_new {context : Context} (new : NewPool context poolId first) :
    UpToDate first first [.poolAdded first] := by
  simp [UpToDate, secondsIn, sumOver, new.last]

/-- Without stake left and with the whole window credited, the reward is paid up to
the rounding of the settlements and of the credits. -/
private theorem Steady.reward_le {pool : StakePool} {members : Members}
    {log : List Event} {now : UInt64} (proper : first.startTime < first.endTime)
    (steady : Steady first now pool members log) (noStake : members.staked = 0)
    (whole : secondsIn log = first.endTime.toNat - first.startTime.toNat) :
    first.scale * first.totalReward.toNat ≤
      first.scale * (paidIn log + settlementsIn log + creditsIn log) +
        creditedStakesIn log := by
  have paid := steady.distributed.credited_le noStake
  change creditedIn _ ≤ first.scale * paidIn _ + _ * settlementsIn _ at paid
  have bound := steady.measured.metered.bound
  rw [UInt64.lt_iff_toNat_lt] at proper
  rw [whole] at bound
  have credited := Nat.le_of_mul_le_mul_right bound (Nat.sub_pos_of_lt proper)
  have rounding := Nat.mul_le_mul_right (settlementsIn log) (Nat.sub_le first.scale 1)
  simp only [Nat.mul_add]
  omega

private theorem le_of_scaled_le {scale reward sum dust : Nat} (positive : 0 < scale)
    (scaled : scale * reward ≤ scale * sum + dust) :
    (reward : ℚ) ≤ sum + (dust : ℚ) / scale := by
  have scalePositive : (0 : ℚ) < scale := Nat.cast_pos.mpr positive
  rw [← mul_le_mul_iff_right₀ scalePositive, mul_add, mul_div_cancel₀ _ scalePositive.ne']
  exact_mod_cast scaled

/-- When a pool is neither stopped nor left in an emergency, has stake from its
start to its end and no stake is left afterwards, the rewards paid reach the
total reward up to one unit for each update and each settlement and one scaled
unit for each unit of stake of each update. -/
theorem whole_reward_paid {arrival departure moment : Moment E}
    (proper : first.startTime < first.endTime)
    (arriving : Run around (lasting poolId) (installed admin start outside) arrival)
    (early : arrival.now ≤ first.startTime)
    (arrived : HasStake poolId arrival.world.storage)
    (present : Run around (staying poolId) arrival departure)
    (late : first.endTime ≤ departure.now)
    (stillStaked : HasStake poolId departure.world.storage)
    (leaving : Run around (lasting poolId) departure moment)
    (left : ∀ users, moment.world.storage.userInfos = some users →
      storedStakes poolId users = 0)
    (once : createdUnder poolId moment.world.log = [first]) :
    (first.totalReward.toNat : ℚ) - creditsIn (eventsOf poolId moment.world.log) -
        settlementsIn (eventsOf poolId moment.world.log) -
        creditedStakesIn (eventsOf poolId moment.world.log) /
          10 ^ first.precision.toNat ≤
      paidIn (eventsOf poolId moment.world.log) := by
  have born : createdUnder poolId arrival.world.log ≠ [] := by
    intro none
    obtain ⟨pool, read, -⟩ := arrived.exists_pool
    exact (arriving.unborn none).1 pool read
  have onceThere : createdUnder poolId departure.world.log = [first] := by
    apply leaving.created_earlier once
    obtain ⟨more, log⟩ := present.log_extends
    rw [log, createdUnder_append]
    simp [born]
  have onceHere := present.created_earlier onceThere born
  -- until the start, while there is stake, and after the end
  obtain ⟨book₁, pool₁, represents₁, found₁, steady₁, upToDate₁⟩ :=
    arriving.pool (arriving_invariant proper)
      (fun _ new => ⟨steady_of_new new, fun _ => upToDate_of_new new⟩) onceHere
  obtain ⟨book₂, pool₂, represents₂, found₂, steady₂, upToDate₂⟩ :=
    present.pool_onward (staying_invariant proper) represents₁ found₁
      ⟨steady₁, upToDate₁ early⟩ onceHere onceThere
  have staked₂ : pool₂.totalStaked.toNat ≠ 0 := by
    obtain ⟨pool, read, staked⟩ := stillStaked.exists_pool
    have found := (represents₂.getPool_eq_ok.mp read).2
    rw [found₂, Option.some.injEq] at found
    rw [found]
    exact staked
  obtain ⟨book₃, pool₃, represents₃, found₃, steady₃, elapsed, upToDate₃, counts⟩ :=
    leaving.pool_onward (leaving_invariant proper) represents₂ found₂
      ⟨steady₂, late, upToDate₂, .inl staked₂⟩ onceThere once
  have noStake : (book₃.members poolId).staked = 0 := by
    obtain ⟨users, stored, -⟩ := represents₃.users
    rw [← represents₃.storedStakes_eq stored]
    exact left users stored
  have whole : secondsIn (eventsOf poolId moment.world.log) =
      first.endTime.toNat - first.startTime.toNat := by
    have ended := counts.resolve_left (by rw [steady₃.sound.staked, noStake]; simp)
    unfold UpToDate at upToDate₃
    rw [UInt64.lt_iff_toNat_lt] at proper
    omega
  have divided := le_of_scaled_le first.scale_pos
    (steady₃.reward_le proper noStake whole)
  simp only [StakePool.scale, Nat.cast_add, Nat.cast_pow, Nat.cast_ofNat] at divided
  linarith only [divided]

end Runs

section Sample

open Sample

/-- The first staker arrives before the start. -/
def arrival : Moment Erc20Ledger :=
  after (lasting 0)
    [setUp, (10, owner, .addPool tokenA tokenA 100 200 18 (units 1000)),
      (20, staker 1, .deposit (units 10) 0)]
    opening (by decide +kernel)

/-- There is stake beyond the end. -/
def departure : Moment Erc20Ledger :=
  after (staying 0)
    [(150, staker 2, .deposit (units 30) 0), (210, staker 1, .withdraw (units 10) 0)]
    arrival (by decide +kernel)

def farewell : Moment Erc20Ledger :=
  after (lasting 0) [(220, staker 2, .withdraw (units 30) 0)] departure
    (by decide +kernel)

private theorem run_arrival : Run around (lasting 0) opening arrival :=
  run_after _

private theorem run_departure : Run around (staying 0) arrival departure :=
  run_after _

private theorem run_farewell : Run around (lasting 0) departure farewell :=
  run_after _

private theorem present_arrival :
    arrival.now ≤ usual.startTime ∧ HasStake 0 arrival.world.storage := by
  decide +kernel

private theorem present_departure :
    usual.endTime ≤ departure.now ∧ HasStake 0 departure.world.storage := by
  decide +kernel

private theorem left_farewell :
    farewell.world.storage.userInfos.map (storedStakes 0) = some 0 ∧
      createdUnder 0 farewell.world.log = [usual] := by
  decide +kernel

theorem whole_reward_paid_farewell :
    (usual.totalReward.toNat : ℚ) - creditsIn (eventsOf 0 farewell.world.log) -
        settlementsIn (eventsOf 0 farewell.world.log) -
        creditedStakesIn (eventsOf 0 farewell.world.log) / 10 ^ usual.precision.toNat ≤
      paidIn (eventsOf 0 farewell.world.log) := by
  obtain ⟨left, once⟩ := left_farewell
  refine whole_reward_paid (by decide) run_arrival present_arrival.1 present_arrival.2
    run_departure present_departure.1 present_departure.2 run_farewell ?_ once
  intro users stored
  simpa [stored] using left

end Sample

end CasperContracts.Staking
