import CasperContracts.Staking.Stakes

/-!
# The way out

`emergency_withdraw` neither updates the pool nor looks at its rewards.  Its one
subtraction is defined because the pool's total is the sum of all its records, in
every state of every run, also where an update of the pool would panic.
-/

namespace CasperContracts.Staking

open CasperContracts.Basis Host Prog

/-- What a successful `emergency_withdraw` leaves behind: the caller's record is empty,
the pool's total is lower by the stake, and everything else is as before. -/
structure Exits (context : Context) (poolId : UInt64) (pool : StakePool) (user : UserInfo)
    (before after : Storage) : Prop where
  record : getUserInfoForPool context poolId after =
    .ok { amount := U256.zero, rewardDebt := U256.zero }
  pool : ∃ totalStaked : U256, pool.totalStaked.toNat = totalStaked.toNat + user.amount.toNat ∧
    getPool poolId after = .ok { pool with totalStaked }
  otherPools : ∀ key, makePoolKeyId poolId before ≠ .ok key →
    after.stakeInfos.bind (fun dictionary => dictionary.lookup key) =
      before.stakeInfos.bind fun dictionary => dictionary.lookup key
  otherRecords : ∀ key, key ≠ makeUserKeyById context poolId →
    after.userInfos.bind (fun dictionary => dictionary.lookup key) =
      before.userInfos.bind fun dictionary => dictionary.lookup key
  keys : ∃ stakeInfos userInfos, after = { before with stakeInfos, userInfos }

section Exit

variable {E : Type} {tokens : TokenCall → E → E → Prop} {context : Context}
  {poolId : UInt64} {w w' : StakeWorld E} {book : Book} {pool : StakePool}
  {user : UserInfo} {storage storage' : Storage}

theorem others_of_updateStorage (written : updateStorage context pool user poolId storage =
    .ok storage') :
    (∀ key, makePoolKeyId poolId storage ≠ .ok key →
      storage'.stakeInfos.bind (fun dictionary => dictionary.lookup key) =
        storage.stakeInfos.bind fun dictionary => dictionary.lookup key) ∧
    (∀ key, key ≠ makeUserKeyById context poolId →
      storage'.userInfos.bind (fun dictionary => dictionary.lookup key) =
        storage.userInfos.bind fun dictionary => dictionary.lookup key) ∧
    ∃ stakeInfos userInfos, storage' = { storage with stakeInfos, userInfos } := by
  simp only [updateStorage, bind_eq_ok, pure_eq_ok, unwrapOrRevertWith_eq_ok] at written
  obtain ⟨_, -, stakes, storedStakes, users, storedUsers, own, isOwn, rfl⟩ := written
  refine ⟨fun key other => ?_, fun key other => ?_, _, _, rfl⟩
  · have apart : key ≠ own := fun same => other (same ▸ isOwn)
    simp [storedStakes, Finmap.lookup_insert_of_ne _ apart]
  · simp [storedUsers, Finmap.lookup_insert_of_ne _ other]

/-- A stake that is part of the pool's total can be taken out. -/
theorem exists_emergencyWithdraw (represents : Represents w.storage book)
    (readPool : getPool poolId w.storage = .ok pool)
    (readUser : getUserInfoForPool context poolId w.storage = .ok user)
    (staked : 0 < user.amount.toNat) (within : user.amount.toNat ≤ pool.totalStaked.toNat)
    {e : E} (answered : tokens (InteractErc20.transfer pool.stakingToken context.caller
      user.amount) w.outside e) :
    ∃ w', Runs (Quiet tokens) (emergencyWithdraw context poolId) w () w' ∧
      w'.outside = e := by
  obtain ⟨valid, -⟩ := represents.getPool_eq_ok.mp readPool
  obtain ⟨totalStaked, difference, -⟩ := U256.exists_checkedSub within
  obtain ⟨storage', written⟩ := represents.exists_updateStorage context
    { pool with totalStaked } { amount := U256.zero, rewardDebt := U256.zero } valid
  have quiet : Quiet tokens (InteractErc20.transfer pool.stakingToken context.caller
      user.amount) w { w with outside := e } := ⟨e, answered, rfl⟩
  refine ⟨⟨storage', e, w.log ++ [.emergencyWithdrawn poolId context.caller user.amount]⟩,
    ?_, rfl⟩
  simp only [emergencyWithdraw, runs_reads_bind, runs_revertIf_bind, runs_arith_bind,
    runs_request_bind, runs_updates_bind, runs_record, U256.isZero_iff, readPool, readUser,
    difference, Except.ok.injEq, Option.some.injEq, exists_eq_left']
  exact ⟨by omega, _, quiet, storage', written, rfl⟩

theorem not_fails_emergencyWithdraw (represents : Represents w.storage book)
    (readPool : getPool poolId w.storage = .ok pool)
    (readUser : getUserInfoForPool context poolId w.storage = .ok user)
    (staked : 0 < user.amount.toNat) (within : user.amount.toNat ≤ pool.totalStaked.toNat)
    (failure : Failure) :
    ¬ Fails (Quiet tokens) (emergencyWithdraw context poolId) w failure := by
  obtain ⟨valid, -⟩ := represents.getPool_eq_ok.mp readPool
  obtain ⟨totalStaked, difference, -⟩ := U256.exists_checkedSub within
  obtain ⟨storage', written⟩ := represents.exists_updateStorage context
    { pool with totalStaked } { amount := U256.zero, rewardDebt := U256.zero } valid
  intro fails
  simp only [emergencyWithdraw, fails_reads_bind, fails_revertIf_bind, fails_arith_bind,
    fails_request_bind, fails_updates_bind, fails_record, U256.isZero_iff, readPool, readUser,
    difference, Except.ok.injEq, Option.some.injEq, exists_eq_left', reduceCtorEq,
    false_and, false_or, and_false, exists_false, or_false] at fails
  rcases fails with ⟨none, -⟩ | ⟨-, u, ⟨e, -, rfl⟩, stuck⟩
  · omega
  · cases stuck.symm.trans written

theorem exits_of_runs (represents : Represents w.storage book)
    (readPool : getPool poolId w.storage = .ok pool)
    (readUser : getUserInfoForPool context poolId w.storage = .ok user)
    (run : Runs (Quiet tokens) (emergencyWithdraw context poolId) w () w') :
    tokens (InteractErc20.transfer pool.stakingToken context.caller user.amount) w.outside
        w'.outside ∧
      Exits context poolId pool user w.storage w'.storage := by
  obtain ⟨pool', amount, totalStaked, u, storage', valid, found, whole, -, lowered,
    ⟨e, answered, rfl⟩, written, rfl⟩ := runs_emergencyWithdraw represents run
  obtain ⟨-, foundToo⟩ := represents.getPool_eq_ok.mp readPool
  obtain ⟨-, rfl⟩ := represents.getUserInfoForPool_eq_ok.mp readUser
  cases found.symm.trans foundToo
  subst whole
  have represents' := represents.updateStorage_eq_ok written
  obtain ⟨otherPools, otherRecords, keys⟩ := others_of_updateStorage written
  refine ⟨answered, ?_, ⟨totalStaked, lowered, ?_⟩, otherPools, otherRecords, keys⟩
  · exact represents'.getUserInfoForPool_eq_ok.mpr ⟨valid, by rw [Book.putUser_user, if_pos rfl]⟩
  · exact represents'.getPool_eq_ok.mpr ⟨valid, by simp⟩

end Exit

section Runs

variable {E : Type} {around : Surroundings E} {admin : AccountHash} {start : UInt64}
variable {outside : E} {moment : Moment E}

/-- In every state reached with fewer than `2 ^ 64` pools created, an account with a
stake in a pool can leave in an emergency: the call does not fail, goes through when
the token pays, and then exactly the stake has been asked for, the record is empty,
the pool's total is lower by the stake, and nothing else has changed. -/
theorem emergency_exit
    (run : Run around unrestricted (installed admin start outside) moment)
    (few : (poolsCreated moment.world.log).length < 2 ^ 64)
    {context : Context} {poolId : UInt64} {pool : StakePool} {user : UserInfo}
    (readPool : getPool poolId moment.world.storage = .ok pool)
    (readUser : getUserInfoForPool context poolId moment.world.storage = .ok user)
    (staked : 0 < user.amount.toNat) :
    (∀ failure, ¬ Fails (Quiet around.answer) (emergencyWithdraw context poolId)
      moment.world failure) ∧
    (∀ e, around.answer
        (.transfer pool.stakingToken (.account context.caller) user.amount)
        moment.world.outside e →
      ∃ w', Runs (Quiet around.answer) (emergencyWithdraw context poolId) moment.world ()
        w' ∧ w'.outside = e) ∧
    ∀ w', Runs (Quiet around.answer) (emergencyWithdraw context poolId) moment.world () w' →
      around.answer (.transfer pool.stakingToken (.account context.caller) user.amount)
        moment.world.outside w'.outside ∧
      Exits context poolId pool user moment.world.storage w'.storage := by
  rcases run.sound few with ⟨admin', fresh⟩ | ⟨book, represents, sound, -, -⟩
  · rw [fresh] at readPool
    exact absurd readPool getPool_installed
  · obtain ⟨-, found⟩ := represents.getPool_eq_ok.mp readPool
    obtain ⟨-, isUser⟩ := represents.getUserInfoForPool_eq_ok.mp readUser
    obtain ⟨-, first, agrees⟩ := sound poolId pool found
    have within : user.amount.toNat ≤ pool.totalStaked.toNat := by
      rw [← isUser, recordKey, Book.user_eq, agrees.staked]
      exact (book.members poolId).amount_le_staked _
    exact ⟨not_fails_emergencyWithdraw represents readPool readUser staked within,
      fun _ => exists_emergencyWithdraw represents readPool readUser staked within,
      fun _ => exits_of_runs represents readPool readUser⟩

end Runs

section Sample

open Sample

/-- A stake in a pool that ends when it starts; after that time every update divides
by zero. -/
def stuck : Moment Erc20Ledger :=
  after unrestricted
    [setUp, (10, owner, .addPool tokenA tokenA 100 100 18 (units 1000)),
      (20, staker 1, .deposit (units 10) 0)]
    opening (by decide +kernel)

private theorem run_stuck : Run around unrestricted opening stuck :=
  run_after _

/-- The staker of the stuck pool at a time when it cannot be updated. -/
abbrev leaving : Context where
  caller := staker 1
  blocktime := 150

def left : Moment Erc20Ledger :=
  after unrestricted [(150, staker 1, .emergencyWithdraw 0)] stuck (by decide +kernel)

private theorem runs_left :
    Runs (Quiet around.answer) (Call.program leaving (.emergencyWithdraw 0)) stuck.world ()
      left.world :=
  runs_after _

private theorem panics_stuck :
    Fails (Quiet around.answer) (withdraw leaving (units 10) 0) stuck.world .panic :=
  fails_of_failure (fun _ _ _ => quiet_of_quietly)
    (show (withdraw leaving (units 10) 0).failure (quietly (Erc20Ledger.answer package))
      stuck.world = some .panic by decide +kernel)

/-- Where `withdraw` panics, the emergency exit is open. -/
theorem emergency_exit_stuck :
    Fails (Quiet around.answer) (withdraw leaving (units 10) 0) stuck.world .panic ∧
      (∀ failure, ¬ Fails (Quiet around.answer) (emergencyWithdraw leaving 0) stuck.world
        failure) ∧
      (∃ w', Runs (Quiet around.answer) (emergencyWithdraw leaving 0) stuck.world () w' ∧
        w'.outside = left.world.outside) ∧
      ∃ pool, Exits leaving 0 pool { amount := units 10, rewardDebt := U256.zero }
        stuck.world.storage left.world.storage := by
  have readUser : getUserInfoForPool leaving 0 stuck.world.storage =
      .ok { amount := units 10, rewardDebt := U256.zero } := by decide +kernel
  obtain ⟨safe, succeeds, done⟩ := emergency_exit run_stuck (by decide +kernel)
    (read_poolOf (by decide +kernel)) readUser (by decide)
  obtain ⟨answered, exits⟩ := done _ runs_left
  exact ⟨panics_stuck, safe, succeeds _ answered, _, exits⟩

end Sample

end CasperContracts.Staking
