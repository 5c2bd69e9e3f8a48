import CasperContracts.Staking.Stakes

/-!
# The other members

A deposit or a withdrawal first brings the pool up to date, so it leaves what is
pending for everyone else at that time as it is.  `emergency_withdraw` does not:
the seconds since the last update are later shared among the remaining stakes,
which get more than they would have before.
-/

namespace CasperContracts.Staking

open CasperContracts.Basis Host Prog

/-- What is pending for an account at a block time: the earnings of its stake
after an update, less its debt. -/
def pendingIn (account : AccountHash) (poolId now : UInt64) (storage : Storage) :
    Except Failure ℤ := do
  let pool ← getPool poolId storage
  let user ← getUserInfoForPool { caller := account, blocktime := now } poolId storage
  let (accrued, _) ← updatedPool now pool
  return (accrued.earned user.amount : ℤ) - user.rewardDebt.toNat

section Update

variable {now : UInt64} {pool accrued : StakePool} {credit : Option Credit}

/-- Outside of its crediting branch an update succeeds. -/
theorem updatedPool_of_not_credits (nothing : ¬ pool.CreditsAt now) :
    ∃ pool', updatedPool now pool = .ok (pool', none) := by
  unfold updatedPool
  simp only
  split
  · exact ⟨pool, rfl⟩
  · rename_i later
    split
    · exact ⟨_, rfl⟩
    · rename_i active
      split
      · exact ⟨pool, rfl⟩
      · rename_i notEnded
        have staked : pool.totalStaked.toNat ≠ 0 ∧ pool.startTime ≤ now := by
          simpa using active
        exact absurd ⟨UInt64.not_le.mp later, staked.1, staked.2,
          UInt64.not_lt.mp notEnded⟩ nothing

/-- Right after an update there is nothing left to credit, whatever becomes of the
stake. -/
theorem Accrual.not_credits (accrual : Accrual now pool accrued credit)
    (totalStaked : U256) : ¬ StakePool.CreditsAt { accrued with totalStaked } now := by
  intro credits
  obtain ⟨later, -, started, notEnded⟩ := credits
  cases accrual with
  | kept settled =>
      rcases settled with recent | ⟨-, -, -, ended⟩
      · exact absurd recent (UInt64.not_le.mpr later)
      · exact absurd notEnded (UInt64.not_le.mpr ended)
  | idle => exact UInt64.lt_irrefl _ later
  | credited => exact UInt64.lt_irrefl _ later

/-- An update that does not reach the crediting branch leaves the accumulator as
it is. -/
theorem Accrual.acc_of_not_credits (accrual : Accrual now pool accrued credit)
    (nothing : ¬ pool.CreditsAt now) :
    accrued.accTokenPerShare.toNat = pool.accTokenPerShare.toNat := by
  cases accrual with
  | kept => rfl
  | idle => rfl
  | credited reaches => exact absurd reaches nothing

theorem Accrual.acc_of_credits (accrual : Accrual now pool accrued credit)
    (reaches : pool.CreditsAt now) :
    ∃ numbers : Credit, CreditOf now pool numbers ∧
      accrued.accTokenPerShare.toNat =
        pool.accTokenPerShare.toNat + numbers.share.toNat := by
  obtain ⟨later, staked, started, notEnded⟩ := reaches
  cases accrual with
  | kept settled =>
      rcases settled with recent | ⟨-, -, -, ended⟩
      · exact absurd recent (UInt64.not_le.mpr later)
      · exact absurd notEnded (UInt64.not_le.mpr ended)
  | idle _ nothing =>
      rcases nothing with empty | early
      · exact absurd empty staked
      · exact absurd started (UInt64.not_le.mpr early)
  | credited _ numbers sum => exact ⟨_, numbers, sum⟩

/-- The smaller the stake, the larger the share of the same credit. -/
theorem CreditOf.share_le_of_staked_le {numbers numbers' : Credit} {totalStaked : U256}
    (credits : CreditOf now pool numbers)
    (credits' : CreditOf now { pool with totalStaked } numbers')
    (less : totalStaked.toNat ≤ pool.totalStaked.toNat) (some : 0 < totalStaked.toNat) :
    numbers.share.toNat ≤ numbers'.share.toNat := by
  have sameSeconds : numbers'.unlocked = numbers.unlocked :=
    credits'.unlocked.trans credits.unlocked.symm
  have sameRewards : numbers'.rewards.toNat = numbers.rewards.toNat := by
    rw [credits'.rewards, credits.rewards, sameSeconds]
  rw [credits.share, credits'.share, sameRewards]
  exact Nat.div_le_div_left less some

theorem Accrual.acc_unique {accrued' : StakePool} {credit' : Option Credit}
    (accrual : Accrual now pool accrued credit)
    (accrual' : Accrual now pool accrued' credit') :
    accrued'.accTokenPerShare.toNat = accrued.accTokenPerShare.toNat := by
  by_cases reaches : pool.CreditsAt now
  · obtain ⟨numbers, credits, acc⟩ := accrual.acc_of_credits reaches
    obtain ⟨numbers', credits', acc'⟩ := accrual'.acc_of_credits reaches
    have positive := Nat.pos_of_ne_zero reaches.2.1
    have le := credits.share_le_of_staked_le credits' le_rfl positive
    have ge := credits'.share_le_of_staked_le credits le_rfl positive
    omega
  · rw [accrual.acc_of_not_credits reaches, accrual'.acc_of_not_credits reaches]

/-- With less stake, but some, an update takes the accumulator at least as far. -/
theorem Accrual.acc_le_of_less_stake {accrued' : StakePool} {credit' : Option Credit}
    {totalStaked : U256} (accrual : Accrual now pool accrued credit)
    (accrual' : Accrual now { pool with totalStaked } accrued' credit')
    (wasStaked : pool.totalStaked.toNat ≠ 0) (some : 0 < totalStaked.toNat)
    (less : totalStaked.toNat ≤ pool.totalStaked.toNat) :
    accrued.accTokenPerShare.toNat ≤ accrued'.accTokenPerShare.toNat := by
  by_cases reaches : pool.CreditsAt now
  · obtain ⟨numbers, credits, acc⟩ := accrual.acc_of_credits reaches
    obtain ⟨numbers', credits', acc'⟩ := accrual'.acc_of_credits
      ⟨reaches.1, Nat.ne_of_gt some, reaches.2.2.1, reaches.2.2.2⟩
    have share := credits.share_le_of_staked_le credits' less some
    change _ = pool.accTokenPerShare.toNat + _ at acc'
    omega
  · have stillNothing : ¬ StakePool.CreditsAt { pool with totalStaked } now :=
      fun other => reaches ⟨other.1, wasStaked, other.2.2.1, other.2.2.2⟩
    rw [accrual.acc_of_not_credits reaches, accrual'.acc_of_not_credits stillNothing]

private theorem earned_mono {pool pool' : StakePool} (scale : pool'.scale = pool.scale)
    (acc : pool.accTokenPerShare.toNat ≤ pool'.accTokenPerShare.toNat) {stake : U256} :
    pool.earned stake ≤ pool'.earned stake := by
  unfold StakePool.earned
  rw [scale]
  exact Nat.div_le_div_right (Nat.mul_le_mul_left _ acc)

private theorem earned_congr {pool pool' : StakePool}
    (acc : pool'.accTokenPerShare.toNat = pool.accTokenPerShare.toNat)
    (scale : pool'.scale = pool.scale) (stake : U256) :
    pool'.earned stake = pool.earned stake := by
  simp [StakePool.earned, scale, acc]

/-- With less stake, an update earns a record at least as much, when it has no
stake in a pool that is left empty. -/
private theorem Accrual.earned_le_of_less_stake {accrued' : StakePool}
    {credit' : Option Credit} {totalStaked stake : U256}
    (accrual : Accrual now pool accrued credit)
    (accrual' : Accrual now { pool with totalStaked } accrued' credit')
    (wasStaked : pool.totalStaked.toNat ≠ 0)
    (less : totalStaked.toNat ≤ pool.totalStaked.toNat)
    (counted : totalStaked.toNat = 0 → stake.toNat = 0) :
    accrued.earned stake ≤ accrued'.earned stake := by
  by_cases left : 0 < totalStaked.toNat
  · exact earned_mono (accrual'.scale_eq.trans accrual.scale_eq.symm)
      (accrual.acc_le_of_less_stake accrual' wasStaked left less)
  · have noStake := counted (Nat.eq_zero_of_not_pos left)
    rw [StakePool.earned_eq_zero noStake]
    exact Nat.zero_le _

private theorem Accrual.earned_of_not_credits (accrual : Accrual now pool accrued credit)
    (totalStaked : U256) (wasStaked : pool.totalStaked.toNat ≠ 0)
    (nothing : ¬ pool.CreditsAt now) :
    ∃ again, updatedPool now { pool with totalStaked } = .ok (again, none) ∧
      ∀ stake, again.earned stake = accrued.earned stake := by
  have stillNothing : ¬ StakePool.CreditsAt { pool with totalStaked } now :=
    fun reaches => nothing ⟨reaches.1, wasStaked, reaches.2.2.1, reaches.2.2.2⟩
  obtain ⟨again, recomputed⟩ := updatedPool_of_not_credits stillNothing
  have accrual' := accrual_of_updatedPool recomputed
  have sameAcc : again.accTokenPerShare.toNat = accrued.accTokenPerShare.toNat :=
    (accrual'.acc_of_not_credits stillNothing).trans
      (accrual.acc_of_not_credits nothing).symm
  exact ⟨again, recomputed,
    earned_congr sameAcc (accrual'.scale_eq.trans accrual.scale_eq.symm)⟩

end Update

section Frame

variable {E : Type} {tokens : TokenCall → E → E → Prop} {context : Context}
  {call : Call} {amount : U256} {poolId : UInt64} {w w' : StakeWorld E} {book : Book}
  {other : AccountHash} {storage : Storage}

theorem pendingIn_eq_ok (represents : Represents storage book) {now : UInt64}
    {pending : ℤ} :
    pendingIn other poolId now storage = .ok pending ↔
      ∃ pool accrued credit, poolId ≤ book.index ∧ book.pool poolId = some pool ∧
        updatedPool now pool = .ok (accrued, credit) ∧
        (accrued.earned (book.user (recordKey other poolId)).amount : ℤ) -
          (book.user (recordKey other poolId)).rewardDebt.toNat = pending := by
  simp only [pendingIn, bind_eq_ok, represents.getPool_eq_ok,
    represents.getUserInfoForPool_eq_ok, pure_eq_ok]
  constructor
  · intro given
    obtain ⟨pool, ⟨valid, found⟩, user, ⟨-, rfl⟩, ⟨accrued, credit⟩, computed, equal⟩ :=
        given
    exact ⟨pool, accrued, credit, valid, found, computed, equal⟩
  · intro given
    obtain ⟨pool, accrued, credit, valid, found, computed, equal⟩ := given
    exact ⟨pool, ⟨valid, found⟩, _, ⟨valid, rfl⟩, (accrued, credit), computed, equal⟩

theorem updatedPool_of_settle
    (settles : call = .deposit amount poolId ∨ call = .withdraw amount poolId)
    (run : Runs (Quiet tokens) (call.program context) w () w') :
    ∃ pool accrued credit, getPool poolId w.storage = .ok pool ∧
      updatedPool context.blocktime pool = .ok (accrued, credit) := by
  rcases settles with rfl | rfl
  · simp only [Call.program, deposit, runs_revertIf_bind, runs_updatePool_bind] at run
    obtain ⟨-, pool, accrued, credit, read, computed, -⟩ := run
    exact ⟨pool, accrued, credit, read, computed⟩
  · simp only [Call.program, withdraw, runs_revertIf_bind, runs_reads_bind,
      runs_updatePool_bind] at run
    obtain ⟨-, _, -, pool, accrued, credit, read, computed, -⟩ := run
    exact ⟨pool, accrued, credit, read, computed⟩

/-- A deposit or a withdrawal leaves the pending rewards of other records as they
are. -/
theorem pending_of_settle (represents : Represents w.storage book)
    (settles : call = .deposit amount poolId ∨ call = .withdraw amount poolId)
    (run : Runs (Quiet tokens) (call.program context) w () w')
    (distinct : other.keyPrefix ≠ context.caller.keyPrefix) :
    ∃ pending, pendingIn other poolId context.blocktime w.storage = .ok pending ∧
      pendingIn other poolId context.blocktime w'.storage = .ok pending := by
  obtain ⟨pool, accrued, credit, read, computed⟩ := updatedPool_of_settle settles run
  obtain ⟨valid, found⟩ := represents.getPool_eq_ok.mp read
  obtain ⟨book', requests, events, change, represents', -, -⟩ :=
    change_of_runs represents run
  refine ⟨_, (pendingIn_eq_ok represents).mpr
    ⟨pool, accrued, credit, valid, found, computed, rfl⟩, ?_⟩
  rw [pendingIn_eq_ok represents']
  obtain ⟨_, accrued', credit', user', totalStaked, foundAgain, accrual, -, rfl⟩ :=
    change.settlement settles
  rw [found, Option.some.injEq] at foundAgain
  subst foundAgain
  -- a second update right afterwards credits nothing
  obtain ⟨again, recomputed⟩ :=
    updatedPool_of_not_credits (accrual.not_credits totalStaked)
  have second := accrual_of_updatedPool recomputed
  have first := accrual_of_updatedPool computed
  have apart : recordKey other poolId ≠ recordKey context.caller poolId :=
    fun same => distinct (congrArg Prod.fst same)
  have updated : accrued'.accTokenPerShare.toNat = accrued.accTokenPerShare.toNat :=
    first.acc_unique accrual
  have sameAcc : again.accTokenPerShare.toNat = accrued.accTokenPerShare.toNat :=
    (second.acc_of_not_credits (accrual.not_credits totalStaked)).trans updated
  have sameScale : again.scale = accrued.scale :=
    second.scale_eq.trans (accrual.scale_eq.trans first.scale_eq.symm)
  refine ⟨_, again, none, valid, by simp, recomputed, ?_⟩
  rw [Book.putUser_user, if_neg apart, Book.putPool_user, earned_congr sameAcc sameScale]

/-- An emergency withdrawal never lowers what is pending for another record that
counts towards the pool's stake, and leaves it as it is when an update would
credit nothing. -/
theorem pending_of_emergency (represents : Represents w.storage book)
    (agrees : ∀ pool, book.pool poolId = some pool →
      pool.totalStaked.toNat = (book.members poolId).staked)
    (run : Runs (Quiet tokens)
      ((Call.emergencyWithdraw poolId).program context) w () w')
    (distinct : other.keyPrefix ≠ context.caller.keyPrefix) {before : ℤ}
    (pendingBefore : pendingIn other poolId context.blocktime w.storage = .ok before) :
    (∀ after, pendingIn other poolId context.blocktime w'.storage = .ok after →
        before ≤ after) ∧
      (OnStored poolId w.storage (fun pool => ¬ pool.CreditsAt context.blocktime) →
        pendingIn other poolId context.blocktime w'.storage = .ok before) := by
  obtain ⟨pool, accrued, credit, valid, found, computed, rfl⟩ :=
    (pendingIn_eq_ok represents).mp pendingBefore
  obtain ⟨pool', amount, totalStaked, u, storage', -, found', whole, nonzero, staked,
    ⟨e, -, rfl⟩, written, rfl⟩ := runs_emergencyWithdraw represents run
  have represents' := represents.updateStorage_eq_ok written
  rw [found, Option.some.injEq] at found'
  subst found'
  have apart : recordKey other poolId ≠ recordKey context.caller poolId :=
    fun same => distinct (congrArg Prod.fst same)
  have sameUser : ((book.putPool poolId { pool with totalStaked }).putUser
      (recordKey context.caller poolId)
      { amount := U256.zero, rewardDebt := U256.zero }).user (recordKey other poolId) =
        book.user (recordKey other poolId) := by
    rw [Book.putUser_user, if_neg apart, Book.putPool_user]
  have accrual := accrual_of_updatedPool computed
  have wasStaked : pool.totalStaked.toNat ≠ 0 := by omega
  constructor
  · intro after pendingAfter
    obtain ⟨_, accrued', credit', -, foundAfter, computed', rfl⟩ :=
      (pendingIn_eq_ok represents').mp pendingAfter
    rw [Book.putUser_pool, Book.putPool_pool_same, Option.some.injEq] at foundAfter
    subst foundAfter
    have accrual' := accrual_of_updatedPool computed'
    rw [sameUser]
    have counted : totalStaked.toNat = 0 →
        (book.user (recordKey other poolId)).amount.toNat = 0 := by
      intro nothingLeft
      rw [whole, recordKey, Book.user_eq] at staked
      rw [recordKey, Book.user_eq]
      apply Members.amount_eq_zero_of_alone _ distinct
      rw [← agrees pool found]
      omega
    have more := accrual.earned_le_of_less_stake accrual' wasStaked (by omega) counted
    omega
  · intro stored
    have nothing : ¬ pool.CreditsAt context.blocktime :=
      stored.of_getPool (represents.getPool_eq_ok.mpr ⟨valid, found⟩)
    obtain ⟨again, recomputed, sameEarned⟩ :=
      accrual.earned_of_not_credits totalStaked wasStaked nothing
    refine (pendingIn_eq_ok represents').mpr ⟨_, again, none, valid, by simp, recomputed, ?_⟩
    rw [sameUser, sameEarned]

end Frame

section Runs

variable {E : Type} {around : Surroundings E} {admin : AccountHash} {start : UInt64}
variable {outside : E} {moment : Moment E}

/-- In every state of a run, a deposit or a withdrawal leaves what is pending at
its block time for every account with another record as it is.  An emergency
withdrawal never lowers it where it can still be computed, and leaves it as it is
when an update at that time would credit nothing. -/
theorem pending_of_others
    (run : Run around unrestricted (installed admin start outside) moment)
    {context : Context} {call : Call} {poolId : UInt64} {other : AccountHash}
    {w : StakeWorld E}
    (success : Runs (Quiet around.answer) (call.program context) moment.world () w)
    (distinct : other.keyPrefix ≠ context.caller.keyPrefix) :
    (∀ amount, call = .deposit amount poolId ∨ call = .withdraw amount poolId →
      ∃ pending,
        pendingIn other poolId context.blocktime moment.world.storage = .ok pending ∧
        pendingIn other poolId context.blocktime w.storage = .ok pending) ∧
      (call = .emergencyWithdraw poolId →
        (poolsCreated moment.world.log).length < 2 ^ 64 → ∀ before,
        pendingIn other poolId context.blocktime moment.world.storage = .ok before →
        (∀ after, pendingIn other poolId context.blocktime w.storage = .ok after →
            before ≤ after) ∧
          (OnStored poolId moment.world.storage
              (fun pool => ¬ pool.CreditsAt context.blocktime) →
            pendingIn other poolId context.blocktime w.storage = .ok before)) := by
  constructor
  · intro amount settles
    obtain ⟨pool, -, -, read, -⟩ := updatedPool_of_settle settles success
    rcases run.represents with ⟨_, fresh⟩ | ⟨book, represents⟩
    · rw [fresh] at read
      exact absurd read getPool_installed
    · exact pending_of_settle represents settles success distinct
  · intro same few before pendingBefore
    subst same
    rcases run.sound few with ⟨_, fresh⟩ | ⟨book, represents, sound, -, -⟩
    · simp only [pendingIn, fresh, bind_eq_ok] at pendingBefore
      obtain ⟨pool, read, -⟩ := pendingBefore
      exact absurd read getPool_installed
    · refine pending_of_emergency represents (fun pool found => ?_) success distinct
        pendingBefore
      obtain ⟨-, first, agrees⟩ := sound poolId pool found
      exact agrees.staked

end Runs

section Sample

open Sample

def shared : Moment Erc20Ledger :=
  after unrestricted
    [setUp, (10, owner, .addPool tokenA tokenA 100 200 18 (units 1000)),
      (20, staker 1, .deposit (units 10) 0), (20, staker 2, .deposit (units 10) 0)]
    opening (by decide +kernel)

private theorem run_shared : Run around unrestricted opening shared :=
  run_after _

def sharedWithdrawn : Moment Erc20Ledger :=
  after unrestricted [(150, staker 1, .withdraw (units 4) 0)] shared (by decide +kernel)

theorem pending_of_others_withdrawn :
    ∃ pending, pendingIn (staker 2) 0 150 shared.world.storage = .ok pending ∧
      pendingIn (staker 2) 0 150 sharedWithdrawn.world.storage = .ok pending :=
  (pending_of_others run_shared (runs_after _) (by decide +kernel)).1 (units 4) (.inr rfl)

def sharedLeft : Moment Erc20Ledger :=
  after unrestricted [(150, staker 1, .emergencyWithdraw 0)] shared (by decide +kernel)

/-- An emergency withdrawal hands the seconds since the last update to the
stakes that remain. -/
theorem pending_of_others_grows :
    ¬ ∀ moment context call w poolId other, Run around unrestricted opening moment →
      Runs (Quiet around.answer) (Call.program context call) moment.world () w →
      (∃ amount, call = .deposit amount poolId ∨ call = .withdraw amount poolId ∨
        call = .emergencyWithdraw poolId) →
      other.keyPrefix ≠ context.caller.keyPrefix →
      pendingIn other poolId context.blocktime moment.world.storage =
        pendingIn other poolId context.blocktime w.storage := by
  intro claim
  have left : Runs (Quiet around.answer)
      (Call.program { caller := staker 1, blocktime := 150 } (.emergencyWithdraw 0))
      shared.world () sharedLeft.world := runs_after _
  have same := claim shared _ _ sharedLeft.world 0 (staker 2) run_shared left
    ⟨U256.zero, .inr (.inr rfl)⟩ (by decide +kernel)
  exact absurd same (by decide +kernel)

end Sample

end CasperContracts.Staking
