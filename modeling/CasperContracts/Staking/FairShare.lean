import CasperContracts.Basis.ProRata
import CasperContracts.Staking.Treatment
import CasperContracts.Staking.Emission

/-!
# Fair shares

The pool never looks at single seconds: it multiplies, divides and rounds when it is
touched.  Still every record gets what a plain split of every second of the window among
the stakes of that second would give it, up to a few units for the rounding.  The only
call that breaks the rule is `emergency_withdraw`.
-/

namespace CasperContracts.Staking

open CasperContracts.Basis Host Prog

/-- The pool is not stopped before its start and nobody leaves it in an emergency. -/
def orderly (poolId : UInt64) (context : Context) (call : Call) (storage : Storage) :
    Prop :=
  stopsAfterStart poolId context call storage ∧ call ≠ .emergencyWithdraw poolId

instance (poolId : UInt64) (context : Context) (call : Call) (storage : Storage) :
    Decidable (orderly poolId context call storage) :=
  inferInstanceAs (Decidable (_ ∧ _))

/-! ## The stakes of a second -/

section Seconds

variable {E : Type}

/-- The storage during a second: what the last call up to it has left. -/
def storageAt (first : Storage) (steps : List (StakeStep E)) (second : ℕ) : Storage :=
  steps.foldl
    (fun storage step =>
      if step.context.blocktime.toNat ≤ second then step.after.storage else storage)
    first

def stakeIn (account : AccountHash) (poolId : UInt64) (storage : Storage) : ℕ :=
  match getUserInfoForPool { caller := account, blocktime := 0 } poolId storage with
  | .ok user => user.amount.toNat
  | .error _ => 0

def totalIn (poolId : UInt64) (storage : Storage) : ℕ :=
  match getPool poolId storage with
  | .ok pool => pool.totalStaked.toNat
  | .error _ => 0

/-- What a plain split of the seconds from `start` to `stop` gives an account of a rate. -/
def splitSecondBySecond (account : AccountHash) (poolId : UInt64) (rate : ℚ)
    (first : Storage) (steps : List (StakeStep E)) (start stop : ℕ) : ℚ :=
  plainShare rate (fun second => stakeIn account poolId (storageAt first steps second))
    (fun second => totalIn poolId (storageAt first steps second)) start stop

def recordSteps (account : AccountHash) (poolId : UInt64) (steps : List (StakeStep E)) :
    List (StakeStep E) :=
  steps.filter fun step =>
    step.context.caller.keyPrefix = account.keyPrefix ∧ step.entry.settles = some poolId

def poolSteps (poolId : UInt64) (steps : List (StakeStep E)) : List (StakeStep E) :=
  steps.filter fun step => step.entry.poolId? = some poolId

variable {account : AccountHash} {poolId : UInt64} {first : Storage}
  {steps : List (StakeStep E)} {step : StakeStep E} {second start stop : ℕ} {rate : ℚ}
  {book : Book} {storage : Storage}

theorem storageAt_snoc :
    storageAt first (steps ++ [step]) second =
      if step.context.blocktime.toNat ≤ second then step.after.storage
      else storageAt first steps second := by
  rw [storageAt, List.foldl_append]
  rfl

theorem stakeIn_eq (represents : Represents storage book) (valid : poolId ≤ book.index) :
    stakeIn account poolId storage =
      ((book.members poolId).user account.keyPrefix).amount.toNat := by
  rw [stakeIn, represents.getUserInfoForPool_eq_ok.mpr ⟨valid, rfl⟩, recordKey,
    Book.user_eq]

theorem totalIn_eq {pool : StakePool} (represents : Represents storage book)
    (valid : poolId ≤ book.index) (found : book.pool poolId = some pool) :
    totalIn poolId storage = pool.totalStaked.toNat := by
  rw [totalIn, represents.getPool_eq_ok.mpr ⟨valid, found⟩]

theorem split_add {middle : ℕ} (early : start ≤ middle) (late : middle ≤ stop) :
    splitSecondBySecond account poolId rate first steps start middle +
        splitSecondBySecond account poolId rate first steps middle stop =
      splitSecondBySecond account poolId rate first steps start stop :=
  plainShare_add early late

/-- What bounds the stake after every step bounds it in every second. -/
theorem stakeIn_le {most : ℕ} (initially : stakeIn account poolId first ≤ most)
    (always : ∀ step ∈ steps, stakeIn account poolId step.after.storage ≤ most) :
    stakeIn account poolId (storageAt first steps second) ≤ most := by
  induction steps using List.reverseRecOn with
  | nil => exact initially
  | append_singleton steps step ih =>
      rw [storageAt_snoc]
      split
      · exact always step (by simp)
      · exact ih fun earlier member => always earlier (by simp [member])

theorem split_snoc (stop_le : stop ≤ max start step.context.blocktime.toNat) :
    splitSecondBySecond account poolId rate first (steps ++ [step]) start stop =
      splitSecondBySecond account poolId rate first steps start stop := by
  apply plainShare_congr
  intro second begun notOver
  have before : ¬ step.context.blocktime.toNat ≤ second := by omega
  rw [storageAt_snoc, if_neg before]
  exact ⟨rfl, rfl⟩

end Seconds

/-! ## A pool that keeps to its schedule -/

/-- What holds of a pool as long as its calls are orderly. -/
structure Orderly (first : StakePool) (now : UInt64) (pool : StakePool) (members : Members)
    (log : List Event) : Prop where
  sound : Sound first pool members
  scheduled : Scheduled first now pool log
  window : pool.startTime ≤ pool.endTime

theorem orderly_invariant (poolId : UInt64) {first : StakePool}
    (proper : first.startTime < first.endTime) :
    PoolInvariant (orderly poolId) poolId (Orderly first) where
  wait := fun kept le => ⟨kept.sound, kept.scheduled.wait le, kept.window⟩
  change := by
    intro now pool members log context call storage selfHash events pool' members' kept le
      read allowed change
    obtain ⟨scheduled, window⟩ := (scheduled_invariant poolId proper).change
      ⟨kept.scheduled, kept.window⟩ le read allowed.1 change
    exact ⟨change.sound kept.sound, scheduled, window⟩

/-- A pool and its members are followed from the second `start` on. -/
def reached (start : ℕ) (pool : StakePool) : ℕ :=
  max start (min pool.lastRewardTimestamp.toNat pool.endTime.toNat)

def StakePool.rate (pool : StakePool) : ℚ :=
  pool.totalReward.toNat / (pool.endTime.toNat - pool.startTime.toNat : ℕ)

/-- The record of an account as a member of the accumulator. -/
def memberOf {E : Type} (account : AccountHash) (poolId : UInt64)
    (steps : List (StakeStep E)) (pool : StakePool) (members : Members) : Member where
  acc := pool.accTokenPerShare.toNat
  stake := (members.user account.keyPrefix).amount.toNat
  debt := (members.user account.keyPrefix).rewardDebt.toNat
  paid := ((recordSteps account poolId steps).map rewardOf).sum
  settlements := (recordSteps account poolId steps).length
  touches := (poolSteps poolId steps).length

section Shares

variable {E : Type} {account : AccountHash} {poolId now later : UInt64}
  {first pool accrued pool' : StakePool} {storage₀ : Storage} {due₀ most start : ℕ}
  {steps : List (StakeStep E)} {step : StakeStep E} {members members' : Members}
  {log events : List Event} {credit : Option Credit}

/-- The record has had its plain share up to the last update, and the stakes since then
are the present ones. -/
structure Fair (account : AccountHash) (poolId : UInt64) (first : StakePool)
    (storage₀ : Storage) (due₀ most start : ℕ) (steps : List (StakeStep E))
    (pool : StakePool) (members : Members) : Prop where
  tracks : (memberOf account poolId steps pool members).Tracks first.scale most
    (due₀ + splitSecondBySecond account poolId first.rate storage₀ steps start
      (reached start pool))
  fresh : ∀ second, pool.lastRewardTimestamp.toNat ≤ second → second < pool.endTime.toNat →
    stakeIn account poolId (storageAt storage₀ steps second) =
        (members.user account.keyPrefix).amount.toNat ∧
      totalIn poolId (storageAt storage₀ steps second) = pool.totalStaked.toNat

/-- The seconds an update goes over find the present stakes. -/
theorem Fair.split_eq (fair : Fair account poolId first storage₀ due₀ most start steps pool
      members) (sameEnd : accrued.endTime = pool.endTime) :
    splitSecondBySecond account poolId first.rate storage₀ steps (reached start pool)
        (reached start accrued) =
      (reached start accrued - reached start pool : ℕ) * (first.rate *
        ((members.user account.keyPrefix).amount.toNat / pool.totalStaked.toNat)) := by
  have finish := congrArg UInt64.toNat sameEnd
  apply plainShare_const
  intro second begun notOver
  simp only [reached] at begun notOver
  exact fair.fresh second (by omega) (by omega)

theorem CreditOf.reached_eq {numbers : Credit} (credits : CreditOf later pool numbers)
    (accTokenPerShare : U256) (reaches : pool.CreditsAt later)
    (window : pool.startTime.toNat ≤ pool.endTime.toNat)
    (start_ge : pool.startTime.toNat ≤ start)
    (start_le : start ≤ max pool.startTime.toNat pool.lastRewardTimestamp.toNat) :
    reached start { pool with accTokenPerShare, lastRewardTimestamp := later } -
      reached start pool = numbers.unlocked.toNat := by
  have unlocked := credits.unlocked_toNat reaches window
  obtain ⟨isLater, -, started, notEnded⟩ := reaches
  rw [UInt64.lt_iff_toNat_lt] at isLater
  rw [UInt64.le_iff_toNat_le] at started notEnded
  simp only [reached]
  omega

/-- An update credits the member what the seconds it goes over are worth. -/
theorem Fair.gain (fair : Fair account poolId first storage₀ due₀ most start steps pool
      members)
    (orderly : Orderly first now pool members log)
    (start_ge : first.startTime.toNat ≤ start)
    (start_le : start ≤ max first.startTime.toNat pool.lastRewardTimestamp.toNat)
    (bounded : ∀ second < later.toNat,
      stakeIn account poolId (storageAt storage₀ steps second) ≤ most)
    (accrual : Accrual later pool accrued credit) :
    let stake := (members.user account.keyPrefix).amount.toNat
    let growth := credit.elim 0 fun c => c.share.toNat
    let gain := splitSecondBySecond account poolId first.rate storage₀ steps
      (reached start pool) (reached start accrued)
    (stake * growth / first.scale : ℚ) ≤ gain ∧
      gain ≤ stake * growth / first.scale + 1 + most / first.scale := by
  intro stake growth gain
  have dust : (0 : ℚ) ≤ most / first.scale := by positivity
  have startTime := congrArg UInt64.toNat orderly.scheduled.startTime_eq
  have window := UInt64.le_iff_toNat_le.mp orderly.window
  have isGain : gain = _ := fair.split_eq accrual.endTime_eq
  -- seconds without reward, or without stake
  have nothing : growth = 0 → gain = 0 → (stake * growth / first.scale : ℚ) ≤ gain ∧
      gain ≤ stake * growth / first.scale + 1 + most / first.scale := by
    intro noGrowth noGain
    rw [noGrowth, noGain, Nat.cast_zero, mul_zero, zero_div]
    exact ⟨le_refl _, by linarith⟩
  have within : stake ≤ pool.totalStaked.toNat := by
    rw [orderly.sound.staked]
    exact members.amount_le_staked _
  cases accrual with
  | kept =>
      apply nothing rfl
      rw [isGain, Nat.sub_self, Nat.cast_zero, zero_mul]
  | idle isLater idle =>
      apply nothing rfl
      rcases idle with empty | early
      · have noStake : (members.user account.keyPrefix).amount.toNat = 0 := by omega
        rw [isGain, noStake, Nat.cast_zero, zero_div, mul_zero, mul_zero]
      · rw [UInt64.lt_iff_toNat_lt] at isLater early
        have still : reached start { pool with lastRewardTimestamp := later } -
            reached start pool = 0 := by
          simp only [reached]
          omega
        rw [isGain, still, Nat.cast_zero, zero_mul]
  | @credited numbers acc reaches credits sum =>
      have seconds := credits.reached_eq acc reaches window
        (startTime ▸ start_ge) (startTime ▸ start_le)
      rw [seconds] at isGain
      have unlocked := credits.unlocked_toNat reaches window
      by_cases none : numbers.unlocked.toNat = 0
      · have noRewards : numbers.rewards.toNat = 0 := by
          rw [credits.rewards, none, Nat.zero_mul, Nat.zero_div]
        apply nothing (credits.share_eq_zero noRewards)
        rw [isGain, none, Nat.cast_zero, zero_mul]
      · have last_lt : pool.lastRewardTimestamp.toNat < pool.endTime.toNat := by omega
        have running : pool.endTime = first.endTime := by
          rcases orderly.scheduled.stage with running | stopped
          · exact running
          · omega
        have stake_le : stake ≤ most := by
          have seen := (fair.fresh _ (le_refl _) last_lt).1
          exact le_of_eq_of_le seen.symm (bounded _ (UInt64.lt_iff_toNat_lt.mp reaches.1))
        have rounded : numbers.rewards.toNat = numbers.unlocked.toNat *
            first.totalReward.toNat / (first.endTime.toNat - first.startTime.toNat) := by
          rw [credits.rewards, CreditOf.window_toNat window, running, startTime,
            orderly.scheduled.totalReward_eq]
        have shared : numbers.share.toNat =
            numbers.rewards.toNat * first.scale / pool.totalStaked.toNat := by
          rw [credits.share, orderly.scheduled.scale_eq]
        rw [isGain]
        exact share_of_rounded first.scale_pos within stake_le rounded shared

theorem Fair.accrue (fair : Fair account poolId first storage₀ due₀ most start steps pool
      members)
    (orderly : Orderly first now pool members log)
    (start_ge : first.startTime.toNat ≤ start)
    (start_le : start ≤ max first.startTime.toNat pool.lastRewardTimestamp.toNat)
    (bounded : ∀ second < later.toNat,
      stakeIn account poolId (storageAt storage₀ steps second) ≤ most)
    (accrual : Accrual later pool accrued credit) :
    Member.Tracks first.scale most
      { memberOf account poolId steps accrued members with
        touches := (poolSteps poolId steps).length + 1 }
      (due₀ + splitSecondBySecond account poolId first.rate storage₀ steps start
        (reached start accrued)) := by
  obtain ⟨lower, upper⟩ := fair.gain orderly start_ge start_le bounded accrual
  have credited := fair.tracks.credit lower upper
  have onward : reached start pool ≤ reached start accrued := by
    have last := accrual.last_le
    have finish := congrArg UInt64.toNat accrual.endTime_eq
    simp only [reached]
    omega
  have begun : start ≤ reached start pool := Nat.le_max_left _ _
  rw [add_assoc, split_add begun onward] at credited
  simp only [memberOf, accrual.acc_eq] at credited ⊢
  exact credited

/-- A step that leaves the pool where an update has brought it. -/
theorem Fair.next {book' : Book} (represents' : Represents step.after.storage book')
    (valid : poolId ≤ book'.index) (found' : book'.pool poolId = some pool')
    (tracks : (memberOf account poolId (steps ++ [step]) pool'
      (book'.members poolId)).Tracks first.scale most
        (due₀ + splitSecondBySecond account poolId first.rate storage₀ steps start
          (reached start pool')))
    (last_le : pool'.lastRewardTimestamp ≤ step.context.blocktime)
    (before : ∀ second, pool'.lastRewardTimestamp.toNat ≤ second →
      second < pool'.endTime.toNat → second < step.context.blocktime.toNat →
      stakeIn account poolId (storageAt storage₀ steps second) =
          ((book'.members poolId).user account.keyPrefix).amount.toNat ∧
        totalIn poolId (storageAt storage₀ steps second) = pool'.totalStaked.toNat) :
    Fair account poolId first storage₀ due₀ most start (steps ++ [step]) pool'
      (book'.members poolId) where
  tracks := by
    rw [UInt64.le_iff_toNat_le] at last_le
    rw [split_snoc]
    · exact tracks
    · simp only [reached]
      omega
  fresh := by
    intro second begun notOver
    rw [storageAt_snoc]
    split
    · exact ⟨stakeIn_eq represents' valid, totalIn_eq represents' valid found'⟩
    · rename_i early
      exact before second begun notOver (Nat.not_le.mp early)

/-- Once an update has been made at a time, no rewarded second before it is left. -/
theorem StakePool.CaughtUp.no_second (caughtUp : pool.CaughtUp now) {second : ℕ}
    (begun : pool.lastRewardTimestamp.toNat ≤ second) (notOver : second < pool.endTime.toNat)
    (early : second < now.toNat) : False := by
  rcases caughtUp with recent | ended
  · rw [UInt64.le_iff_toNat_le] at recent
    omega
  · rw [UInt64.lt_iff_toNat_lt] at ended
    omega

@[simp] theorem recordSteps_append {more : List (StakeStep E)} :
    recordSteps account poolId (steps ++ more) =
      recordSteps account poolId steps ++ recordSteps account poolId more :=
  List.filter_append _ _

@[simp] theorem poolSteps_append {more : List (StakeStep E)} :
    poolSteps poolId (steps ++ more) = poolSteps poolId steps ++ poolSteps poolId more :=
  List.filter_append _ _

theorem Settled.owed {context : Context} {selfHash : ContractPackageHash}
    {user user' : UserInfo} {call : Call} {requests : List TokenCall}
    (settled : Settled context selfHash poolId accrued user user' call requests events)
    (debt : user'.rewardDebt.toNat = accrued.earned user'.amount)
    (noDebt : user.amount.toNat = 0 → user.rewardDebt.toNat = 0) :
    user.amount.toNat * accrued.accTokenPerShare.toNat / accrued.scale =
      paidIn events + user.rewardDebt.toNat := by
  have reward := (settled.settlesAt debt).reward
  split at reward
  · rename_i noStake
    have paid : paidIn events = 0 := by omega
    rw [paid, noDebt noStake, noStake, Nat.zero_mul, Nat.zero_div]
  · omega

theorem memberOf_snoc {events : List Event}
    (log : step.after.log = step.before.log ++ events) :
    memberOf account poolId (steps ++ [step]) pool members =
      { memberOf account poolId steps pool members with
        paid := ((recordSteps account poolId steps).map rewardOf).sum +
          if step.context.caller.keyPrefix = account.keyPrefix ∧
              step.entry.settles = some poolId then paidIn events else 0
        settlements := (recordSteps account poolId steps).length +
          if step.context.caller.keyPrefix = account.keyPrefix ∧
              step.entry.settles = some poolId then 1 else 0
        touches := (poolSteps poolId steps).length +
          if step.entry.poolId? = some poolId then 1 else 0 } := by
  simp only [memberOf, recordSteps_append, poolSteps_append, List.map_append, List.sum_append,
    List.length_append]
  congr 1
  · congr 1
    by_cases own : step.context.caller.keyPrefix = account.keyPrefix ∧
        step.entry.settles = some poolId
    · simp [recordSteps, own, rewardOf_eq log]
    · simp [recordSteps, own]
  · congr 1
    by_cases own : step.context.caller.keyPrefix = account.keyPrefix ∧
        step.entry.settles = some poolId
    · simp [recordSteps, own]
    · simp [recordSteps, own]
  · congr 1
    by_cases own : step.entry.poolId? = some poolId
    · simp [poolSteps, own]
    · simp [poolSteps, own]

theorem Fair.untouched {book book' : Book} {requests : List TokenCall}
    (fair : Fair account poolId first storage₀ due₀ most start steps pool
      (book.members poolId))
    (change : Change step.context book step.entry requests events book')
    (represents' : Represents step.after.storage book') (valid : poolId ≤ book'.index)
    (log : step.after.log = step.before.log ++ events)
    (found' : book'.pool poolId = some pool)
    (sameMembers : book'.members poolId = book.members poolId)
    (last_le : pool.lastRewardTimestamp ≤ step.context.blocktime) :
    Fair account poolId first storage₀ due₀ most start (steps ++ [step]) pool
      (book'.members poolId) := by
  apply Fair.next represents' valid found' _ last_le
  · intro second begun notOver _
    rw [sameMembers]
    exact fair.fresh second begun notOver
  · have notOwn : ¬ (step.context.caller.keyPrefix = account.keyPrefix ∧
        step.entry.settles = some poolId) := by
      intro own
      exact changed_of_settles change own.2 sameMembers
    have more := fair.tracks.more (Nat.le_add_right _
      (if step.entry.poolId? = some poolId then 1 else 0))
    rw [memberOf_snoc log, if_neg notOwn, if_neg notOwn, Nat.add_zero, Nat.add_zero,
      sameMembers]
    exact more

/-- A pool that is stopped has been updated to its end. -/
theorem Accrual.last_of_stop (accrual : Accrual now pool accrued credit)
    (running : now < pool.endTime) (last_le : accrued.lastRewardTimestamp ≤ now) :
    accrued.lastRewardTimestamp = now := by
  apply UInt64.le_antisymm last_le
  rcases accrual.caughtUp with recent | ended
  · exact recent
  · rw [accrual.endTime_eq] at ended
    exact absurd (UInt64.lt_trans running ended) (UInt64.not_lt.mpr last_le)

theorem Fair.touched {book' : Book} {selfHash : ContractPackageHash} {call : Call}
    (fair : Fair account poolId first storage₀ due₀ most start steps pool members)
    (orderly : Orderly first now pool members log)
    (start_ge : first.startTime.toNat ≤ start)
    (start_le : start ≤ max first.startTime.toNat pool.lastRewardTimestamp.toNat)
    (bounded : ∀ second < step.context.blocktime.toNat,
      stakeIn account poolId (storageAt storage₀ steps second) ≤ most)
    (change : PoolChange step.context selfHash poolId pool members call events pool' members')
    (called : step.entry = call) (stays : call ≠ .emergencyWithdraw poolId)
    (represents' : Represents step.after.storage book') (valid : poolId ≤ book'.index)
    (extended : step.after.log = step.before.log ++ events)
    (found' : book'.pool poolId = some pool') (isMembers : book'.members poolId = members')
    (last_le : pool'.lastRewardTimestamp ≤ step.context.blocktime) :
    Fair account poolId first storage₀ due₀ most start (steps ++ [step]) pool'
      (book'.members poolId) := by
  cases change with
  | emergencyWithdraw => exact absurd rfl stays
  | @settle _ accrued credit user' totalStaked requests events accrual settled debt staked =>
      have credited := fair.accrue orderly start_ge start_le bounded accrual
      have settles : step.entry.settles = some poolId := by
        rw [called]
        exact settled.settles
      have onPool : step.entry.poolId? = some poolId := by
        rw [called]
        cases settled <;> rfl
      have paid : paidIn (creditEvents poolId credit ++ events) = paidIn events := by
        rw [paidIn_append, paidIn_creditEvents, Nat.zero_add]
      apply Fair.next represents' valid found' _ last_le
      · intro second begun notOver early
        exact (accrual.caughtUp.no_second begun notOver early).elim
      · rw [isMembers, memberOf_snoc extended, if_pos onPool, paid]
        by_cases own : step.context.caller.keyPrefix = account.keyPrefix
        · have owed := settled.owed debt orderly.sound.debt_eq_zero
          have sameScale : accrued.scale = first.scale :=
            accrual.scale_eq.trans orderly.scheduled.scale_eq
          rw [sameScale, own] at owed
          have tracks := credited.settle user'.amount.toNat owed
          have newDebt : user'.rewardDebt.toNat =
              user'.amount.toNat * accrued.accTokenPerShare.toNat / first.scale := by
            rw [debt, StakePool.earned, sameScale]
          rw [if_pos ⟨own, settles⟩, if_pos ⟨own, settles⟩]
          simp only [memberOf, Members.user_insert, own, if_true, newDebt] at tracks ⊢
          exact tracks
        · have notOwn : ¬ (step.context.caller.keyPrefix = account.keyPrefix ∧
              step.entry.settles = some poolId) := fun both => own both.1
          rw [if_neg notOwn, if_neg notOwn]
          simp only [memberOf, Members.user_insert, Ne.symm own, if_false] at credited ⊢
          exact credited
  | @stopReward accrued credit refund accrual owner running refunds =>
      have credited := fair.accrue orderly start_ge start_le bounded accrual
      have last := accrual.last_of_stop running last_le
      apply Fair.next represents' valid found' _ last_le
      · intro second begun notOver early
        rw [last] at begun
        exact absurd early (Nat.not_lt.mpr begun)
      · have sameReach : reached start { accrued with endTime := step.context.blocktime } =
            reached start accrued := by
          rw [UInt64.lt_iff_toNat_lt, ← accrual.endTime_eq] at running
          simp only [reached, last]
          omega
        have notOwn : ¬ (step.context.caller.keyPrefix = account.keyPrefix ∧
            step.entry.settles = some poolId) := by
          intro both
          rw [called] at both
          cases both.2
        have onPool : step.entry.poolId? = some poolId := by
          rw [called]
          rfl
        rw [isMembers, memberOf_snoc extended, if_neg notOwn, if_neg notOwn, if_pos onPool,
          sameReach]
        exact credited

/-- The pool as the calls since `log₀` have left it. -/
structure Followed (account : AccountHash) (poolId : UInt64) (first : StakePool)
    (storage₀ : Storage) (due₀ most start : ℕ) (steps : List (StakeStep E)) (now : UInt64)
    (book : Book) (log : List Event) (pool : StakePool) : Prop where
  found : book.pool poolId = some pool
  schedule : Orderly first now pool (book.members poolId) (eventsOf poolId log)
  start_le : start ≤ max first.startTime.toNat pool.lastRewardTimestamp.toNat
  fair : Fair account poolId first storage₀ due₀ most start steps pool (book.members poolId)

theorem Followed.call {book book' : Book} {requests : List TokenCall}
    (followed : Followed account poolId first storage₀ due₀ most start steps now book log pool)
    (proper : first.startTime < first.endTime) (start_ge : first.startTime.toNat ≤ start)
    (bounded : ∀ second < step.context.blocktime.toNat,
      stakeIn account poolId (storageAt storage₀ steps second) ≤ most)
    (le : now ≤ step.context.blocktime) (represents : Represents step.before.storage book)
    (allowed : orderly poolId step.context step.entry step.before.storage)
    (change : Change step.context book step.entry requests events book')
    (represents' : Represents step.after.storage book') (valid : poolId ≤ book'.index)
    (extended : step.after.log = step.before.log ++ events)
    (notAgain : createdUnder poolId events = []) :
    ∃ pool', Followed account poolId first storage₀ due₀ most start (steps ++ [step])
      step.context.blocktime book' (log ++ events) pool' := by
  have last := followed.schedule.scheduled.last_le
  rcases change.on_pool followed.found notAgain with
    ⟨noEvents, found', sameMembers⟩ | ⟨pool', valid₀, allEvents, found', poolChange⟩
  · have last_le : pool.lastRewardTimestamp ≤ step.context.blocktime := by
      rw [UInt64.le_iff_toNat_le] at le ⊢
      omega
    refine ⟨pool, found', ?_, followed.start_le, ?_⟩
    · rw [eventsOf_append, noEvents, List.append_nil, sameMembers]
      exact (orderly_invariant poolId proper).wait followed.schedule le
    · exact followed.fair.untouched change represents' valid extended found' sameMembers last_le
  · have read := represents.getPool_eq_ok.mpr ⟨valid₀, followed.found⟩
    have orderly' :=
      (orderly_invariant poolId proper).change followed.schedule le read allowed poolChange
    have aged := UInt64.le_iff_toNat_le.mp poolChange.aged.last
    refine ⟨pool', found', ?_, ?_, ?_⟩
    · rw [eventsOf_append, allEvents]
      exact orderly'
    · have start_le := followed.start_le
      omega
    · exact followed.fair.touched followed.schedule start_ge followed.start_le bounded
        poolChange rfl allowed.2 represents' valid extended found' rfl
        (UInt64.le_iff_toNat_le.mpr orderly'.scheduled.last_le)

/-- The shares stay fair through every orderly call, as long as the ids of the pools have
not wrapped around and the pool is not created again. -/
theorem followed_traced (around : Surroundings E) (proper : first.startTime < first.endTime)
    (start_ge : first.startTime.toNat ≤ start) {log₀ : List Event}
    (born : createdUnder poolId log₀ ≠ []) :
    (bookModel around (orderly poolId)).Traced fun steps now book _ log =>
      (∃ more, log = log₀ ++ more) ∧
        ((poolsCreated log).length < 2 ^ 64 → Roster book log) ∧
        ((poolsCreated log).length < 2 ^ 64 →
          createdUnder poolId log = createdUnder poolId log₀ →
          (∀ second < now.toNat,
            stakeIn account poolId (storageAt storage₀ steps second) ≤ most) →
          ∃ pool, Followed account poolId first storage₀ due₀ most start steps now book log
            pool) where
  wait := by
    intro steps now later book e log kept le
    obtain ⟨extended, roster, alive⟩ := kept
    refine ⟨extended, roster, fun few once bounded => ?_⟩
    have sooner := UInt64.le_iff_toNat_le.mp le
    obtain ⟨pool, followed⟩ :=
      alive few once fun second early => bounded second (by omega)
    exact ⟨pool, { followed with
      schedule := (orderly_invariant poolId proper).wait followed.schedule le }⟩
  drift := fun kept _ => kept
  change := by
    intro steps now context entry requests events book book' w w' kept le represents allowed
      _ change represents' extended answered
    obtain ⟨⟨more, before⟩, roster, alive⟩ := kept
    have roster' := (roster_invariant around).change roster le represents allowed change
      answered
    rw [extended]
    refine ⟨⟨more ++ events, by rw [before, List.append_assoc]⟩, roster',
      fun few once bounded => ?_⟩
    have parts : createdUnder poolId more = [] ∧ createdUnder poolId events = [] := by
      simpa [before] using once
    have valid : poolId ≤ book'.index := by
      by_contra beyond
      have absent := (roster' few).above poolId (UInt64.le_of_lt (UInt64.not_le.mp beyond))
      rw [once] at absent
      exact born absent
    have earlier : ∀ second < context.blocktime.toNat,
        stakeIn account poolId (storageAt storage₀ steps second) ≤ most := by
      intro second early
      have seen := bounded second early
      rw [storageAt_snoc, if_neg (Nat.not_le.mpr early)] at seen
      exact seen
    have fewer : (poolsCreated w.log).length < 2 ^ 64 := by
      rw [poolsCreated_append, List.length_append] at few
      omega
    have sooner : now.toNat ≤ context.blocktime.toNat := UInt64.le_iff_toNat_le.mp le
    obtain ⟨pool, followed⟩ := alive fewer (by simp [before, parts.1])
      fun second early => earlier second (by omega)
    exact followed.call proper start_ge earlier le represents allowed change represents' valid
      extended parts.2

theorem Accrual.last_le_now (accrual : Accrual now pool accrued credit)
    (le : pool.lastRewardTimestamp ≤ now) : accrued.lastRewardTimestamp ≤ now := by
  cases accrual with
  | kept => exact le
  | idle => exact UInt64.le_refl _
  | credited => exact UInt64.le_refl _

/-- An update at `now` has gone over all rewarded seconds before it. -/
theorem split_reached {rate : ℚ} (accrual : Accrual now pool accrued credit)
    (last_le : accrued.lastRewardTimestamp ≤ now) :
    splitSecondBySecond account poolId rate storage₀ steps start (reached start accrued) =
      splitSecondBySecond account poolId rate storage₀ steps start
        (min now.toNat pool.endTime.toNat) := by
  have sameEnd := congrArg UInt64.toNat accrual.endTime_eq
  have whole : reached start accrued = max start (min now.toNat pool.endTime.toNat) := by
    rw [UInt64.le_iff_toNat_le] at last_le
    rcases accrual.caughtUp with recent | ended
    · rw [UInt64.le_iff_toNat_le] at recent
      simp only [reached]
      omega
    · rw [UInt64.lt_iff_toNat_lt] at ended
      simp only [reached]
      omega
  rw [whole]
  by_cases some : start ≤ min now.toNat pool.endTime.toNat
  · rw [Nat.max_eq_right some]
  · have none := Nat.le_of_not_le some
    rw [Nat.max_eq_left none, splitSecondBySecond, splitSecondBySecond,
      plainShare_of_le (le_refl _), plainShare_of_le none]

end Shares

/-! ## The share of an account -/

section Runs

variable {E : Type} {around : Surroundings E} {admin : AccountHash} {begin now : UInt64}
variable {outside : E} {moment : Moment E} {w : StakeWorld E}
  {steps : List (StakeStep E)} {account : AccountHash} {poolId : UInt64}

/-- What is pending is what the stake has earned beyond its debt, which is never
negative. -/
theorem owed_of_pending {storage : Storage} {book : Book} {first pool : StakePool}
    {due : ℤ} (represents : Represents storage book) (found : book.pool poolId = some pool)
    (sound : Sound first pool (book.members poolId))
    (pending : pendingIn account poolId now storage = .ok due) :
    ∃ accrued credit owed, updatedPool now pool = .ok (accrued, credit) ∧ due = (owed : ℕ) ∧
      ((book.members poolId).user account.keyPrefix).amount.toNat *
          accrued.accTokenPerShare.toNat / first.scale =
        owed + ((book.members poolId).user account.keyPrefix).rewardDebt.toNat := by
  obtain ⟨pool', accrued, credit, -, found', computed, isDue⟩ :=
    (pendingIn_eq_ok represents).mp pending
  cases found.symm.trans found'
  rw [recordKey, Book.user_eq] at isDue
  let record := (book.members poolId).user account.keyPrefix
  have accrual := accrual_of_updatedPool computed
  have within : record.rewardDebt.toNat ≤ accrued.earned record.amount :=
    le_trans (sound.debts account.keyPrefix) (accrual.earned_le record.amount)
  have scale : accrued.scale = first.scale := accrual.scale_eq.trans sound.scale_eq
  refine ⟨accrued, credit, accrued.earned record.amount - record.rewardDebt.toNat, computed,
    ?_, ?_⟩
  · rw [← isDue, Nat.cast_sub within]
  · rw [Nat.sub_add_cancel within, StakePool.earned, scale]

theorem Run.orderly {first : StakePool} (proper : first.startTime < first.endTime)
    (run : Run around (Staking.orderly poolId) (installed admin begin outside) moment)
    (once : createdUnder poolId moment.world.log = [first]) :
    ∃ book pool, Represents moment.world.storage book ∧
      ((poolsCreated moment.world.log).length < 2 ^ 64 → Roster book moment.world.log) ∧
      book.pool poolId = some pool ∧
      Orderly first moment.now pool (book.members poolId)
        (eventsOf poolId moment.world.log) := by
  have fresh : ∀ context, NewPool context poolId first →
      Orderly first context.blocktime first ∅ [.poolAdded first] :=
    fun _ new => ⟨.of_new new, .of_new new, UInt64.le_of_lt proper⟩
  have invariant :=
    (roster_invariant around).and ((orderly_invariant poolId proper).lives fresh)
  have initially : ∀ now admin selfHash (_ : E),
      ((poolsCreated []).length < 2 ^ 64 → Roster (.empty admin selfHash) []) ∧
        Lives poolId first (Orderly first) now (.empty admin selfHash) [] := by
    intro now admin selfHash _
    refine ⟨fun _ => ⟨rfl, fun poolId lt => ?_, fun _ _ => rfl⟩,
      ⟨fun _ => ⟨rfl, rfl, rfl⟩, fun impossible => by cases impossible⟩⟩
    exact absurd lt (UInt64.not_lt.mpr UInt64.zero_le)
  rcases run.from_installed invariant initially with
    ⟨empty, -⟩ | ⟨book, represents, roster, lives⟩
  · rw [empty] at once
    cases once
  · obtain ⟨pool, found, orderly⟩ := lives.alive once
    exact ⟨book, pool, represents, roster, found, orderly⟩

/-- Take any part of a run in which the pool is not left in an emergency and not stopped
before its start.  What an account has been paid in it and what is pending for it in the
end is what was pending for it at the last update before, and its share in a plain split of
every second since among the stakes of that second, but for the rounding: at most one unit
more for each settlement of its record, and at most one unit, and the rounding of its
stake, less for each settlement and for each call on the pool. -/
theorem fair_share {first pool₀ pool : StakePool} {due₀ due : ℤ} {most : ℕ}
    (proper : first.startTime < first.endTime)
    (run : Run around (orderly poolId) (installed admin begin outside) moment)
    (history : History (around.setting (orderly poolId)) moment.now moment.world steps now w)
    (once : createdUnder poolId w.log = [first])
    (few : (poolsCreated w.log).length < 2 ^ 64)
    (read₀ : getPool poolId moment.world.storage = .ok pool₀)
    (read : getPool poolId w.storage = .ok pool)
    (pending₀ : pendingIn account poolId pool₀.lastRewardTimestamp moment.world.storage =
      .ok due₀)
    (pending : pendingIn account poolId now w.storage = .ok due)
    (bounded : ∀ second < now.toNat,
      stakeIn account poolId (storageAt moment.world.storage steps second) ≤ most) :
    let paid := ((recordSteps account poolId steps).map rewardOf).sum
    let share := splitSecondBySecond account poolId first.rate moment.world.storage steps
      (max first.startTime.toNat pool₀.lastRewardTimestamp.toNat)
      (min now.toNat pool.endTime.toNat)
    let settlements := (recordSteps account poolId steps).length
    let touches := (poolSteps poolId steps).length
    (paid + due : ℚ) ≤ due₀ + share + (settlements + 1) ∧
      due₀ + share ≤ paid + due + (settlements + 1) +
        (touches + 1) * (1 + most / 10 ^ first.precision.toNat) := by
  intro paid share settlements touches
  have born : createdUnder poolId moment.world.log ≠ [] :=
    fun none => (run.unborn none).1 pool₀ read₀
  have once₀ := (run_of_history history).created_earlier once born
  obtain ⟨book₀, pool₀', represents₀, roster₀, found₀, orderly₀⟩ := run.orderly proper once₀
  obtain ⟨valid₀, isFound₀⟩ := represents₀.getPool_eq_ok.mp read₀
  cases isFound₀.symm.trans found₀
  -- at the beginning
  obtain ⟨accrued₀, credit₀, owed₀, computed₀, rfl, owes₀⟩ :=
    owed_of_pending represents₀ found₀ orderly₀.sound pending₀
  have sameAcc : accrued₀.accTokenPerShare.toNat = pool₀.accTokenPerShare.toNat := by
    have notLater : ¬ pool₀.CreditsAt pool₀.lastRewardTimestamp :=
      fun credits => UInt64.lt_irrefl _ credits.1
    exact (accrual_of_updatedPool computed₀).acc_of_not_credits notLater
  rw [sameAcc] at owes₀
  let start := max first.startTime.toNat pool₀.lastRewardTimestamp.toNat
  have followed₀ : Followed account poolId first moment.world.storage owed₀ most start
      ([] : List (StakeStep E)) moment.now book₀ moment.world.log pool₀ := {
    found := found₀
    schedule := orderly₀
    start_le := le_refl _
    fair := {
      tracks := by
        have atStart : reached start pool₀ = start := by
          simp only [reached, start]
          omega
        have nothing : splitSecondBySecond account poolId first.rate moment.world.storage
            ([] : List (StakeStep E)) start start = 0 :=
          plainShare_of_le (le_refl _)
        rw [atStart, nothing, add_zero]
        exact .start owes₀
      fresh := fun second _ _ =>
        ⟨stakeIn_eq represents₀ valid₀, totalIn_eq represents₀ valid₀ found₀⟩ } }
  -- in the end
  obtain ⟨book, represents, -, -, alive⟩ :=
    history.represented (followed_traced around proper (Nat.le_max_left _ _) born)
      represents₀ ⟨⟨[], by simp⟩, roster₀, fun _ _ _ => ⟨pool₀, followed₀⟩⟩
  obtain ⟨pool', followed⟩ := alive few (once.trans once₀.symm) bounded
  obtain ⟨-, isFound⟩ := represents.getPool_eq_ok.mp read
  cases isFound.symm.trans followed.found
  obtain ⟨accrued, credit, owed, computed, rfl, owes⟩ :=
    owed_of_pending represents followed.found followed.schedule.sound pending
  have accrual := accrual_of_updatedPool computed
  have tracks := followed.fair.accrue followed.schedule (Nat.le_max_left _ _)
    followed.start_le bounded accrual
  have last_le := UInt64.le_iff_toNat_le.mpr followed.schedule.scheduled.last_le
  rw [split_reached accrual (accrual.last_le_now last_le)] at tracks
  obtain ⟨above, below⟩ := tracks.pending owes
  have scale : (first.scale : ℚ) = 10 ^ first.precision.toNat := by
    rw [StakePool.scale]
    push_cast
    rfl
  simp only [memberOf, scale, Nat.cast_add, Nat.cast_one] at above below
  exact ⟨above, below⟩

end Runs

section Sample

open Sample

def awaited : Moment Erc20Ledger :=
  after (orderly 0)
    [setUp, (10, owner, .addPool tokenA tokenA 100 200 18 (units 1000)),
      (20, staker 1, .deposit (units 10) 0)]
    opening (by decide +kernel)

private theorem run_awaited : Run around (orderly 0) opening awaited :=
  run_after _

/-- Another stake comes in, and a part of the first one leaves. -/
@[irreducible] def joining? :
    Option (List (StakeStep Erc20Ledger) × StakeWorld Erc20Ledger) :=
  replaySteps (around.setting (orderly 0)) (Erc20Ledger.answer package)
    [({ caller := staker 2, blocktime := 120 }, .deposit (units 30) 0),
      ({ caller := staker 1, blocktime := 150 }, .withdraw (units 4) 0)]
    awaited.now awaited.world

def joining : List (StakeStep Erc20Ledger) × StakeWorld Erc20Ledger :=
  joining?.get (by decide +kernel)

def endOfTime : UInt64 := 18446744073709551615

/-- The moment at which it is over. -/
def joined : Moment Erc20Ledger where
  now := endOfTime
  world := joining.2

private theorem history_joining :
    History (around.setting (orderly 0)) awaited.now awaited.world joining.1 joined.now
      joined.world := by
  have replays : joining? = some joining := (Option.some_get _).symm
  unfold joining? at replays
  obtain ⟨later, history⟩ := History.replayed (fun _ _ _ answered => answered) .start replays
  have le : later ≤ endOfTime := by
    rw [UInt64.le_iff_toNat_le]
    exact Nat.le_of_lt_succ later.toNat_lt
  exact history.wait le

/-- The first account has been paid 275, and 83 are pending for it. -/
theorem fair_share_joining :
    let share := splitSecondBySecond (staker 1) 0 usual.rate awaited.world.storage
      joining.1 100 200
    (275 + 83 : ℚ) ≤ share + 2 ∧ share ≤ 275 + 83 + 2 + 3 * (1 + 10 / 10 ^ 18) := by
  have read₀ : getPool 0 awaited.world.storage =
      .ok { usual with lastRewardTimestamp := 20, totalStaked := units 10 } := by
    decide +kernel
  have pending₀ : pendingIn (staker 1) 0 20 awaited.world.storage = .ok 0 := by decide +kernel
  have pending : pendingIn (staker 1) 0 joined.now joined.world.storage = .ok 83 := by
    decide +kernel
  have bounded : ∀ second < joined.now.toNat, stakeIn (staker 1) 0
      (storageAt awaited.world.storage joining.1 second) ≤ 10 := fun _ _ =>
    stakeIn_le (by decide +kernel) (by decide +kernel)
  have proper : usual.startTime < usual.endTime := by decide
  have shares := fair_share proper run_awaited history_joining (by decide +kernel)
    (by decide +kernel) read₀ (read_poolOf (by decide +kernel)) pending₀ pending bounded
  have paid : ((recordSteps (staker 1) 0 joining.1).map rewardOf).sum = 275 := by
    decide +kernel
  have settlements : (recordSteps (staker 1) 0 joining.1).length = 1 := by decide +kernel
  have touches : (poolSteps 0 joining.1).length = 2 := by decide +kernel
  have stop : min joined.now.toNat
      (poolOf 0 joined (by decide +kernel)).endTime.toNat = 200 := by decide +kernel
  have start : max usual.startTime.toNat (20 : UInt64).toNat = 100 := by decide
  have precision : usual.precision.toNat = 18 := by decide
  rw [paid, settlements, touches, start, stop, precision] at shares
  obtain ⟨above, below⟩ := shares
  push_cast at above below
  constructor
  · linarith
  · linarith

end Sample

end CasperContracts.Staking
