import CasperContracts.Staking.Payments

/-!
# Emission

The seconds a pool credits lie inside of its reward window and are credited
once, so the credits never run ahead of the schedule, and with the bounds on
the payments neither do the rewards paid.
-/

namespace CasperContracts.Staking

open CasperContracts.Basis Host Prog

/-- `stop_reward` is not called on the pool before its start. -/
def stopsAfterStart (poolId : UInt64) (context : Context) (call : Call)
    (storage : Storage) : Prop :=
  call = .stopReward poolId →
    OnStored poolId storage fun pool => pool.startTime ≤ context.blocktime

def neverStops (poolId : UInt64) (_ : Context) (call : Call) (_ : Storage) : Prop :=
  call ≠ .stopReward poolId

instance (poolId : UInt64) (context : Context) (call : Call) (storage : Storage) :
    Decidable (stopsAfterStart poolId context call storage) :=
  inferInstanceAs (Decidable (call = .stopReward poolId → OnStored poolId storage _))

instance (poolId : UInt64) (context : Context) (call : Call) (storage : Storage) :
    Decidable (neverStops poolId context call storage) :=
  inferInstanceAs (Decidable (call ≠ .stopReward poolId))

/-! ## One credit -/

section Credit

variable {now : UInt64} {pool : StakePool} {credit : Credit}

/-- Inside of a proper window the unlocked seconds do not wrap. -/
theorem CreditOf.unlocked_toNat (numbers : CreditOf now pool credit)
    (reaches : pool.CreditsAt now)
    (proper : pool.startTime.toNat ≤ pool.endTime.toNat) :
    credit.unlocked.toNat + max pool.startTime.toNat pool.lastRewardTimestamp.toNat =
      min now.toNat pool.endTime.toNat := by
  obtain ⟨later, -, started, notEnded⟩ := reaches
  rw [UInt64.lt_iff_toNat_lt] at later
  rw [UInt64.le_iff_toNat_le] at started notEnded
  have upper := getMin_toNat now pool.endTime
  have lower := getMax_toNat pool.startTime pool.lastRewardTimestamp
  rw [numbers.unlocked, toNat_sub_of_le (by omega)]
  omega

theorem CreditOf.window_toNat (proper : pool.startTime.toNat ≤ pool.endTime.toNat) :
    (pool.endTime - pool.startTime).toNat =
      pool.endTime.toNat - pool.startTime.toNat :=
  toNat_sub_of_le proper

theorem CreditOf.rewards_le (numbers : CreditOf now pool credit) :
    credit.rewards.toNat * (pool.endTime - pool.startTime).toNat ≤
      pool.totalReward.toNat * credit.unlocked.toNat := by
  rw [numbers.rewards, Nat.mul_comm pool.totalReward.toNat]
  exact Nat.div_mul_le_self _ _

theorem CreditOf.share_le (numbers : CreditOf now pool credit) :
    credit.share.toNat * credit.totalStaked.toNat ≤
      pool.scale * credit.rewards.toNat := by
  rw [numbers.share, numbers.totalStaked, Nat.mul_comm pool.scale]
  exact Nat.div_mul_le_self _ _

theorem CreditOf.rewards_eq_zero (numbers : CreditOf now pool credit)
    (nothing : credit.unlocked.toNat = 0) : credit.rewards.toNat = 0 := by
  simp [numbers.rewards, nothing]

theorem CreditOf.share_eq_zero (numbers : CreditOf now pool credit)
    (nothing : credit.rewards.toNat = 0) : credit.share.toNat = 0 := by
  simp [numbers.share, nothing]

end Credit

/-! ## The schedule -/

/-- A pool created with a proper window: the rewards it has credited are within
the schedule up to its last update, and once it is stopped it has been updated
to its end.  Nothing has been credited when the stop came before the start. -/
structure Scheduled (first : StakePool) (now : UInt64) (pool : StakePool)
    (log : List Event) : Prop where
  terms : pool.terms = first.terms
  last_le : pool.lastRewardTimestamp.toNat ≤ now.toNat
  end_le : pool.endTime.toNat ≤ first.endTime.toNat
  stage : pool.endTime = first.endTime ∨
    pool.endTime.toNat ≤ pool.lastRewardTimestamp.toNat
  early : pool.lastRewardTimestamp.toNat ≤ first.startTime.toNat ∨
    pool.endTime.toNat < first.startTime.toNat → pool.accTokenPerShare.toNat = 0
  within : rewardsIn log * (first.endTime.toNat - first.startTime.toNat) ≤
    first.totalReward.toNat *
      (min pool.lastRewardTimestamp.toNat pool.endTime.toNat - first.startTime.toNat)
  shared : creditedIn log ≤ first.scale * rewardsIn log

/-- An update at `now` would credit a window that ends before it starts. -/
def StakePool.WrapsAt (pool : StakePool) (now : UInt64) : Prop :=
  pool.endTime < pool.startTime ∧ pool.CreditsAt now

instance (pool : StakePool) (now : UInt64) : Decidable (pool.WrapsAt now) :=
  inferInstanceAs (Decidable (_ ∧ _))

namespace Scheduled

variable {first pool accrued : StakePool} {now later : UInt64} {log : List Event}
  {credit : Option Credit}

theorem startTime_eq (scheduled : Scheduled first now pool log) :
    pool.startTime = first.startTime :=
  congrArg Terms.startTime scheduled.terms

theorem totalReward_eq (scheduled : Scheduled first now pool log) :
    pool.totalReward = first.totalReward :=
  congrArg Terms.totalReward scheduled.terms

theorem scale_eq (scheduled : Scheduled first now pool log) :
    pool.scale = first.scale := by
  have samePrecision : pool.precision = first.precision :=
    congrArg Terms.precision scheduled.terms
  rw [StakePool.scale, StakePool.scale, samePrecision]

theorem wait (scheduled : Scheduled first now pool log) (le : now ≤ later) :
    Scheduled first later pool log where
  terms := scheduled.terms
  last_le := le_trans scheduled.last_le (UInt64.le_iff_toNat_le.mp le)
  end_le := scheduled.end_le
  stage := scheduled.stage
  early := scheduled.early
  within := scheduled.within
  shared := scheduled.shared

/-- A window that does not wrap is proper wherever it is credited. -/
theorem proper_of_credits (scheduled : Scheduled first now pool log)
    (unwrapped : ¬ pool.WrapsAt later) (reaches : pool.CreditsAt later) :
    first.startTime.toNat ≤ pool.endTime.toNat := by
  rw [← scheduled.startTime_eq, ← UInt64.le_iff_toNat_le]
  exact UInt64.not_lt.mp fun wraps => unwrapped ⟨wraps, reaches⟩

theorem rewards_of_stopped {credit : Credit} (scheduled : Scheduled first now pool log)
    (unwrapped : ¬ pool.WrapsAt later) (reaches : pool.CreditsAt later)
    (numbers : CreditOf later pool credit)
    (stopped : pool.endTime.toNat ≤ pool.lastRewardTimestamp.toNat) :
    credit.rewards.toNat = 0 := by
  have proper := scheduled.proper_of_credits unwrapped reaches
  have start := congrArg UInt64.toNat scheduled.startTime_eq
  have seconds := numbers.unlocked_toNat reaches (by omega)
  exact numbers.rewards_eq_zero (by omega)

theorem acc_of_stopped (scheduled : Scheduled first now pool log)
    (unwrapped : ¬ pool.WrapsAt later)
    (stopped : pool.endTime.toNat ≤ pool.lastRewardTimestamp.toNat)
    (accrual : Accrual later pool accrued credit) :
    accrued.accTokenPerShare.toNat = pool.accTokenPerShare.toNat := by
  cases accrual with
  | kept => rfl
  | idle => rfl
  | credited reaches numbers sum =>
      have nothing := scheduled.rewards_of_stopped unwrapped reaches numbers stopped
      rw [numbers.share_eq_zero nothing] at sum
      exact sum

private theorem stage_later (scheduled : Scheduled first now pool log)
    (isLater : pool.lastRewardTimestamp < later) :
    pool.endTime = first.endTime ∨ pool.endTime.toNat ≤ later.toNat := by
  rw [UInt64.lt_iff_toNat_lt] at isLater
  rcases scheduled.stage with running | stopped
  · exact .inl running
  · exact .inr (le_trans stopped (le_of_lt isLater))

/-- An update that has nothing to credit moves the time of the last update. -/
private theorem idle (scheduled : Scheduled first now pool log)
    (isLater : pool.lastRewardTimestamp < later) :
    Scheduled first later { pool with lastRewardTimestamp := later } log := by
  refine ⟨scheduled.terms, le_refl _, scheduled.end_le, scheduled.stage_later isLater,
    ?_, ?_, scheduled.shared⟩
  · intro given
    rw [UInt64.lt_iff_toNat_lt] at isLater
    rcases given with early | before
    · exact scheduled.early (.inl (le_trans (le_of_lt isLater) early))
    · exact scheduled.early (.inr before)
  · rw [UInt64.lt_iff_toNat_lt] at isLater
    apply le_trans scheduled.within
    apply Nat.mul_le_mul_left
    change _ ≤ min later.toNat pool.endTime.toNat - _
    omega

/-- A credit stays within the part of the window that has passed. -/
theorem within_credited {credit : Credit} (scheduled : Scheduled first now pool log)
    (proper : first.startTime < first.endTime) (unwrapped : ¬ pool.WrapsAt later)
    (reaches : pool.CreditsAt later) (numbers : CreditOf later pool credit) :
    (rewardsIn log + credit.rewards.toNat) *
        (first.endTime.toNat - first.startTime.toNat) ≤
      first.totalReward.toNat *
        (min later.toNat pool.endTime.toNat - first.startTime.toNat) := by
  rw [UInt64.lt_iff_toNat_lt] at proper
  have isLater := UInt64.lt_iff_toNat_lt.mp reaches.1
  have started := UInt64.le_iff_toNat_le.mp reaches.2.2.1
  have finish := scheduled.proper_of_credits unwrapped reaches
  have start := congrArg UInt64.toNat scheduled.startTime_eq
  have seconds := numbers.unlocked_toNat reaches (by omega)
  rw [Nat.add_mul]
  rcases scheduled.stage with running | stopped
  · have sameEnd := congrArg UInt64.toNat running
    have more := numbers.rewards_le
    rw [CreditOf.window_toNat (by omega), sameEnd, start, scheduled.totalReward_eq] at more
    apply le_trans (Nat.add_le_add scheduled.within more)
    rw [← Nat.mul_add]
    apply Nat.mul_le_mul_left
    omega
  · rw [scheduled.rewards_of_stopped unwrapped reaches numbers stopped, Nat.zero_mul,
      Nat.add_zero]
    apply le_trans scheduled.within
    apply Nat.mul_le_mul_left
    omega

private theorem credited {credit : Credit} {acc : U256} (poolId : UInt64)
    (proper : first.startTime < first.endTime) (scheduled : Scheduled first now pool log)
    (unwrapped : ¬ pool.WrapsAt later) (reaches : pool.CreditsAt later)
    (numbers : CreditOf later pool credit)
    (sum : acc.toNat = pool.accTokenPerShare.toNat + credit.share.toNat) :
    Scheduled first later
      { pool with accTokenPerShare := acc, lastRewardTimestamp := later }
      (log ++ creditEvents poolId (some credit)) := by
  have rewards : rewardsIn (log ++ creditEvents poolId (some credit)) =
      rewardsIn log + credit.rewards.toNat :=
    sumOver_credited _ _ _ _
  have amounts : creditedIn (log ++ creditEvents poolId (some credit)) =
      creditedIn log + credit.share.toNat * credit.totalStaked.toNat :=
    sumOver_credited _ _ _ _
  refine ⟨scheduled.terms, le_refl _, scheduled.end_le, scheduled.stage_later reaches.1,
    ?_, ?_, ?_⟩
  · intro given
    have isLater := UInt64.lt_iff_toNat_lt.mp reaches.1
    have finish := scheduled.proper_of_credits unwrapped reaches
    have start := congrArg UInt64.toNat scheduled.startTime_eq
    have seconds := numbers.unlocked_toNat reaches (by omega)
    rcases given with early | before
    · change later.toNat ≤ _ at early
      change acc.toNat = 0
      have nothing := numbers.rewards_eq_zero (by omega)
      rw [sum, numbers.share_eq_zero nothing, scheduled.early (.inl (by omega))]
    · change pool.endTime.toNat < _ at before
      omega
  · have within := scheduled.within_credited proper unwrapped reaches numbers
    rw [rewards]
    exact within
  · have more := numbers.share_le
    rw [scheduled.scale_eq] at more
    rw [rewards, amounts, Nat.mul_add]
    exact Nat.add_le_add scheduled.shared more

theorem accrue (poolId : UInt64) (proper : first.startTime < first.endTime)
    (scheduled : Scheduled first now pool log) (le : now ≤ later)
    (unwrapped : ¬ pool.WrapsAt later) (accrual : Accrual later pool accrued credit) :
    Scheduled first later accrued (log ++ creditEvents poolId credit) := by
  cases accrual with
  | kept => simpa [creditEvents] using scheduled.wait le
  | idle isLater nothing => simpa [creditEvents] using scheduled.idle isLater
  | credited reaches numbers sum =>
      exact scheduled.credited poolId proper unwrapped reaches numbers sum

/-- The credits, shared out, are within the schedule too. -/
theorem credited_le (scheduled : Scheduled first now pool log) :
    creditedIn log * (first.endTime.toNat - first.startTime.toNat) ≤
      first.scale * first.totalReward.toNat *
        (min pool.lastRewardTimestamp.toNat pool.endTime.toNat -
          first.startTime.toNat) := by
  apply le_trans (Nat.mul_le_mul_right _ scheduled.shared)
  rw [Nat.mul_assoc, Nat.mul_assoc]
  exact Nat.mul_le_mul_left _ scheduled.within

/-- The records of the members play no part in the schedule. -/
theorem settle {totalStaked : U256} {events : List Event}
    (scheduled : Scheduled first now pool log)
    (noCredit : creditedIn events = 0 ∧ rewardsIn events = 0) :
    Scheduled first now { pool with totalStaked } (log ++ events) := by
  have amounts : creditedIn (log ++ events) = creditedIn log := by
    rw [creditedIn, sumOver_append, ← creditedIn, noCredit.1, Nat.add_zero]
  have rewards : rewardsIn (log ++ events) = rewardsIn log := by
    rw [rewardsIn, sumOver_append, ← rewardsIn, noCredit.2, Nat.add_zero]
  refine ⟨scheduled.terms, scheduled.last_le, scheduled.end_le, scheduled.stage,
    scheduled.early, ?_, ?_⟩
  · rw [rewards]
    exact scheduled.within
  · rw [amounts, rewards]
    exact scheduled.shared

theorem last_of_running (scheduled : Scheduled first now pool log) (le : now ≤ later)
    (running : later < pool.endTime) (accrual : Accrual later pool accrued credit) :
    accrued.lastRewardTimestamp.toNat = later.toNat := by
  rw [UInt64.lt_iff_toNat_lt] at running
  rw [UInt64.le_iff_toNat_le] at le
  have last := scheduled.last_le
  cases accrual with
  | kept settled =>
      rcases settled with recent | ⟨-, -, -, elapsed⟩
      · rw [UInt64.le_iff_toNat_le] at recent
        omega
      · rw [UInt64.lt_iff_toNat_lt] at elapsed
        omega
  | idle => rfl
  | credited => rfl

theorem endTime_of_running (scheduled : Scheduled first now pool log) (le : now ≤ later)
    (running : later < pool.endTime) : pool.endTime = first.endTime := by
  rw [UInt64.lt_iff_toNat_lt] at running
  rw [UInt64.le_iff_toNat_le] at le
  have last := scheduled.last_le
  exact scheduled.stage.resolve_right (by omega)

theorem stop {poolId : UInt64} {refund : U256}
    (proper : first.startTime < first.endTime)
    (scheduled : Scheduled first now pool log) (le : now ≤ later)
    (running : later < pool.endTime) (accrual : Accrual later pool accrued credit) :
    Scheduled first later { accrued with endTime := later }
      (log ++ creditEvents poolId credit ++ [.stopped poolId later refund]) := by
  have sameEnd := scheduled.endTime_of_running le running
  have unwrapped : ¬ pool.WrapsAt later := by
    intro given
    obtain ⟨wraps, -⟩ := given
    rw [sameEnd, scheduled.startTime_eq] at wraps
    exact absurd wraps (UInt64.not_lt.mpr (UInt64.le_of_lt proper))
  have updated := scheduled.accrue poolId proper le unwrapped accrual
  have present := scheduled.last_of_running le running accrual
  have stillEnd := congrArg UInt64.toNat accrual.endTime_eq
  rw [UInt64.lt_iff_toNat_lt] at running
  have finish := scheduled.end_le
  refine ⟨updated.terms, updated.last_le, ?_, .inr (le_of_eq present.symm), ?_, ?_, ?_⟩
  · change later.toNat ≤ first.endTime.toNat
    omega
  · intro given
    rcases given with early | before
    · exact updated.early (.inl early)
    · change later.toNat < _ at before
      exact updated.early (.inl (by omega))
  · have rewards : rewardsIn (log ++ creditEvents poolId credit ++
        [.stopped poolId later refund]) =
          rewardsIn (log ++ creditEvents poolId credit) := by
      simp [rewardsIn, sumOver]
    rw [rewards]
    refine le_trans updated.within (Nat.mul_le_mul_left _ ?_)
    change _ ≤ min accrued.lastRewardTimestamp.toNat later.toNat - _
    omega
  · have shared := updated.shared
    simpa [rewardsIn, creditedIn, sumOver] using shared

theorem of_new {context : Context} {poolId : UInt64}
    (new : NewPool context poolId first) :
    Scheduled first context.blocktime first [.poolAdded first] where
  terms := rfl
  last_le := by simp [new.last]
  end_le := le_refl _
  stage := .inl rfl
  early := fun _ => by rw [new.acc]; rfl
  within := by simp [rewardsIn, sumOver]
  shared := by simp [creditedIn, sumOver]

end Scheduled

theorem Settled.creditedIn_eq {context : Context} {selfHash : ContractPackageHash}
    {poolId : UInt64} {accrued : StakePool} {user user' : UserInfo} {call : Call}
    {requests : List TokenCall} {events : List Event}
    (settled : Settled context selfHash poolId accrued user user' call requests events) :
    creditedIn events = 0 ∧ rewardsIn events = 0 := by
  cases settled <;> exact ⟨rfl, rfl⟩

theorem Settled.updates {context : Context} {selfHash : ContractPackageHash}
    {poolId : UInt64} {accrued : StakePool} {user user' : UserInfo} {call : Call}
    {requests : List TokenCall} {events : List Event}
    (settled : Settled context selfHash poolId accrued user user' call requests events) :
    call ≠ .emergencyWithdraw poolId := by
  cases settled <;> simp

theorem PoolChange.scheduled {context : Context} {selfHash : ContractPackageHash}
    {poolId now : UInt64} {first pool pool' : StakePool} {members members' : Members}
    {call : Call} {log events : List Event}
    (proper : first.startTime < first.endTime) (le : now ≤ context.blocktime)
    (unwrapped : call ≠ .emergencyWithdraw poolId → ¬ pool.WrapsAt context.blocktime)
    (change : PoolChange context selfHash poolId pool members call events pool' members')
    (scheduled : Scheduled first now pool log) :
    Scheduled first context.blocktime pool' (log ++ events) := by
  cases change with
  | settle accrual settled debt staked =>
      rw [← List.append_assoc]
      exact (scheduled.accrue poolId proper le (unwrapped settled.updates) accrual).settle
        settled.creditedIn_eq
  | emergencyWithdraw whole nonzero staked =>
      exact (scheduled.wait le).settle ⟨rfl, rfl⟩
  | stopReward accrual owner running refunds =>
      rw [← List.append_assoc]
      exact scheduled.stop proper le running accrual

theorem PoolChange.startTime_le {context : Context} {selfHash : ContractPackageHash}
    {poolId : UInt64} {pool pool' : StakePool} {members members' : Members}
    {call : Call} {events : List Event}
    (afterStart : call = .stopReward poolId → pool.startTime ≤ context.blocktime)
    (change : PoolChange context selfHash poolId pool members call events pool' members')
    (proper : pool.startTime ≤ pool.endTime) : pool'.startTime ≤ pool'.endTime := by
  cases change with
  | @settle _ accrued _ _ _ _ _ accrual =>
      change accrued.startTime ≤ accrued.endTime
      rw [accrual.startTime_eq, accrual.endTime_eq]
      exact proper
  | emergencyWithdraw => exact proper
  | @stopReward accrued _ _ accrual =>
      change accrued.startTime ≤ context.blocktime
      rw [accrual.startTime_eq]
      exact afterStart rfl

theorem scheduled_invariant (poolId : UInt64) {first : StakePool}
    (proper : first.startTime < first.endTime) :
    PoolInvariant (stopsAfterStart poolId) poolId fun now pool _ log =>
      Scheduled first now pool log ∧ pool.startTime ≤ pool.endTime where
  wait := fun ⟨scheduled, window⟩ le => ⟨scheduled.wait le, window⟩
  change := fun ⟨scheduled, window⟩ le read allowed change =>
    ⟨change.scheduled proper le (fun _ wraps => UInt64.not_lt.mpr window wraps.1) scheduled,
      change.startTime_le (fun stops => (allowed stops).of_getPool read) window⟩

/-! ## Emission and payments of a run -/

section Runs

variable {E : Type} {around : Surroundings E} {admin : AccountHash} {start : UInt64}
variable {outside : E} {moment : Moment E} {poolId : UInt64} {first : StakePool}

/-- What the updates of a pool have credited never runs ahead of the schedule,
as long as the pool is not stopped before its start; before the start nothing
is credited. -/
theorem emission_within_schedule (proper : first.startTime < first.endTime)
    (run : Run around (stopsAfterStart poolId) (installed admin start outside) moment)
    (once : createdUnder poolId moment.world.log = [first]) :
    (first.startTime ≤ moment.now →
        creditedIn (eventsOf poolId moment.world.log) *
            (first.endTime.toNat - first.startTime.toNat) ≤
          10 ^ first.precision.toNat * first.totalReward.toNat *
            (min moment.now.toNat first.endTime.toNat - first.startTime.toNat)) ∧
      (moment.now ≤ first.startTime → ∀ pool,
        getPool poolId moment.world.storage = .ok pool →
        pool.accTokenPerShare.toNat = 0) := by
  obtain ⟨book, pool, represents, found, scheduled, -⟩ :=
    run.pool (scheduled_invariant poolId proper)
      (fun _ new => ⟨.of_new new, UInt64.le_of_lt proper⟩) once
  have last := scheduled.last_le
  constructor
  · intro started
    refine le_trans scheduled.credited_le (Nat.mul_le_mul_left _ ?_)
    have finish := scheduled.end_le
    omega
  · intro early pool' read
    obtain ⟨-, found'⟩ := represents.getPool_eq_ok.mp read
    rw [found, Option.some.injEq] at found'
    subst found'
    rw [UInt64.le_iff_toNat_le] at early
    exact scheduled.early (.inl (by omega))

/-- The rewards paid for a pool that is never stopped exceed its total reward by
less than one unit for each deposit and each withdrawal of a part of a stake. -/
theorem rewards_paid_le (proper : first.startTime < first.endTime)
    (run : Run around (neverStops poolId) (installed admin start outside) moment)
    (once : createdUnder poolId moment.world.log = [first]) :
    10 ^ first.precision.toNat * paidIn (eventsOf poolId moment.world.log) ≤
      10 ^ first.precision.toNat * first.totalReward.toNat +
        (10 ^ first.precision.toNat - 1) *
          stakesKeptIn (eventsOf poolId moment.world.log) := by
  have running : Run around (stopsAfterStart poolId) (installed admin start outside)
      moment :=
    run.weaken fun _ _ _ never stops => absurd stops never
  have schedule := scheduled_invariant poolId proper
  have budget : PoolInvariant (stopsAfterStart poolId) poolId fun now pool members log =>
      Sound first pool members ∧
        Tally.Covered first.scale (tallyOf pool members log) ∧
        Scheduled first now pool log ∧ pool.startTime ≤ pool.endTime := {
    wait := fun ⟨sound, covered, scheduled, window⟩ le =>
      ⟨sound, covered, scheduled.wait le, window⟩
    change := fun ⟨sound, covered, scheduled⟩ le read allowed change =>
      ⟨change.sound sound, change.covered sound covered,
        schedule.change scheduled le read allowed change⟩ }
  obtain ⟨book, pool, represents, found, sound, covered, scheduled, -⟩ :=
    running.pool budget
      (fun _ new => ⟨.of_new new, covered_of_new first, .of_new new,
        UInt64.le_of_lt proper⟩) once
  have debts : first.scale * (tallyOf pool (book.members poolId)
      (eventsOf poolId moment.world.log)).debt ≤ _ := sound.scale_eq ▸ sound.debts_le
  have paid := covered.paid_le debts
  have whole : creditedIn (eventsOf poolId moment.world.log) ≤
      first.scale * first.totalReward.toNat := by
    rw [UInt64.lt_iff_toNat_lt] at proper
    have finish := scheduled.end_le
    refine Nat.le_of_mul_le_mul_right
      (le_trans scheduled.credited_le (Nat.mul_le_mul_left _ ?_))
      (Nat.sub_pos_of_lt proper)
    omega
  exact le_trans paid (Nat.add_le_add_right whole _)

end Runs

section Sample

open Sample

def midway : Moment Erc20Ledger :=
  after (stopsAfterStart 0)
    [setUp, (10, owner, .addPool tokenA tokenA 100 200 18 (units 1000)),
      (20, staker 1, .deposit (units 10) 0), (150, owner, .stopReward 0),
      (160, staker 1, .withdraw (units 10) 0)]
    opening (by decide +kernel)

private theorem run_midway : Run around (stopsAfterStart 0) opening midway :=
  run_after _

theorem emission_within_schedule_midway :
    creditedIn (eventsOf 0 midway.world.log) *
        (usual.endTime.toNat - usual.startTime.toNat) ≤
      10 ^ usual.precision.toNat * usual.totalReward.toNat *
        (min midway.now.toNat usual.endTime.toNat - usual.startTime.toNat) := by
  have started : createdUnder 0 midway.world.log = [usual] ∧
      usual.startTime ≤ midway.now := by decide +kernel
  exact (emission_within_schedule (by decide) run_midway started.1).1 started.2

def short : StakePool := firstPool 100 103 (units 3)

/-- One staker is there from the start, two join after a third of the window. -/
def rounding : Moment Erc20Ledger :=
  after (neverStops 0)
    [setUp, (10, owner, .addPool tokenA tokenA 100 103 18 (units 3)),
      (20, staker 1, .deposit (units 2) 0),
      (101, staker 2, .deposit (units 1) 0), (101, staker 3, .deposit (units 1) 0),
      (103, staker 1, .withdraw (units 2) 0), (103, staker 2, .withdraw (units 1) 0),
      (103, staker 3, .deposit (units 1) 0)]
    opening (by decide +kernel)

private theorem run_rounding : Run around (neverStops 0) opening rounding :=
  run_after _

private theorem rounding_exceeds : createdUnder 0 rounding.world.log = [short] ∧
    short.totalReward.toNat < paidIn (eventsOf 0 rounding.world.log) := by
  decide +kernel

theorem rewards_paid_le_rounding :
    10 ^ short.precision.toNat * paidIn (eventsOf 0 rounding.world.log) ≤
      10 ^ short.precision.toNat * short.totalReward.toNat +
        (10 ^ short.precision.toNat - 1) *
          stakesKeptIn (eventsOf 0 rounding.world.log) :=
  rewards_paid_le (by decide) run_rounding rounding_exceeds.1

/-- Debts that are rounded down let three stakers take four units out of three. -/
theorem rewards_paid_exceed :
    ¬ ∀ moment first, Run around (neverStops 0) opening moment →
      createdUnder 0 moment.world.log = [first] → first.startTime < first.endTime →
        paidIn (eventsOf 0 moment.world.log) ≤ first.totalReward.toNat := by
  intro claim
  obtain ⟨once, exceeds⟩ := rounding_exceeds
  have within := claim rounding short run_rounding once (by decide)
  exact absurd within (Nat.not_le.mpr exceeds)

end Sample

end CasperContracts.Staking
