import CasperContracts.Staking.OnePool

/-!
# The reward window

`update_pool` and `stop_reward` subtract block times as `u64`, which wraps in
the release build.  The subtractions are safe on a pool whose window is proper,
but `add_pool` accepts improper windows and `stop_reward` can produce one.
`keepsWindow` is what the calls have to observe for the subtractions to be safe
in every state.
-/

namespace CasperContracts.Staking

open CasperContracts.Basis Host Prog

/-- Wherever `update_pool` or `stop_reward` subtracts block times of the pool at
`now`, the difference does not wrap, and the divisors are not zero. -/
structure WindowSound (pool : StakePool) (now : UInt64) : Prop where
  update : pool.CreditsAt now → pool.startTime < pool.endTime ∧
    getMax pool.startTime pool.lastRewardTimestamp ≤ getMin now pool.endTime
  stop : now < pool.endTime → pool.startTime < pool.endTime ∧
    getMax now pool.startTime ≤ pool.endTime

/-- A pool is created with a proper window or ends as it is created, is stopped
after its start or without stake, and takes deposits only in a proper window. -/
def keepsWindow (context : Context) : Call → Storage → Prop
  | .addPool _ _ startTime endTime _ _, _ =>
      startTime < endTime ∨ endTime = context.blocktime
  | .stopReward poolId, storage =>
      OnStored poolId storage fun pool =>
        pool.startTime < context.blocktime ∨ pool.totalStaked.toNat = 0
  | .deposit _ poolId, storage =>
      OnStored poolId storage fun pool => pool.startTime < pool.endTime
  | _, _ => True

instance (context : Context) :
    (call : Call) → (storage : Storage) → Decidable (keepsWindow context call storage)
  | .addPool _ _ startTime endTime _ _, _ =>
      inferInstanceAs (Decidable (startTime < endTime ∨ endTime = context.blocktime))
  | .stopReward poolId, storage =>
      inferInstanceAs (Decidable (OnStored poolId storage fun pool =>
        pool.startTime < context.blocktime ∨ pool.totalStaked.toNat = 0))
  | .deposit _ poolId, storage =>
      inferInstanceAs (Decidable (OnStored poolId storage fun pool =>
        pool.startTime < pool.endTime))
  | .init _, _ | .withdraw .., _ | .emergencyWithdraw _, _ | .saveMe .., _
  | .setAdmin _, _ => .isTrue trivial

/-- A pool has a proper window, or it is over and has no stake. -/
def Windowed (now : UInt64) (pool : StakePool) : Prop :=
  pool.startTime < pool.endTime ∨ pool.endTime ≤ now ∧ pool.totalStaked.toNat = 0

section Window

variable {now later : UInt64} {pool pool' accrued : StakePool} {credit : Option Credit}

theorem Windowed.wait (windowed : Windowed now pool) (le : now ≤ later) :
    Windowed later pool := by
  rcases windowed with proper | ⟨elapsed, empty⟩
  · exact .inl proper
  · exact .inr ⟨UInt64.le_trans elapsed le, empty⟩

/-- A proper window is safe, and one that is over and empty is never used. -/
theorem Windowed.sound (windowed : Windowed now pool) (le : now ≤ later) :
    WindowSound pool later := by
  rcases windowed with proper | ⟨elapsed, empty⟩
  · constructor
    · intro credits
      obtain ⟨isLater, -, started, notEnded⟩ := credits
      refine ⟨proper, ?_⟩
      rw [UInt64.lt_iff_toNat_lt] at proper isLater
      rw [UInt64.le_iff_toNat_le] at started notEnded
      rw [UInt64.le_iff_toNat_le, getMax_toNat, getMin_toNat]
      omega
    · intro running
      refine ⟨proper, ?_⟩
      rw [UInt64.lt_iff_toNat_lt] at proper running
      rw [UInt64.le_iff_toNat_le, getMax_toNat]
      omega
  · constructor
    · intro credits
      exact absurd empty credits.2.1
    · intro running
      exact absurd (UInt64.le_trans elapsed le) (UInt64.not_le.mpr running)

theorem Windowed.accrue (windowed : Windowed now pool)
    (accrual : Accrual later pool accrued credit) : Windowed now accrued := by
  unfold Windowed at windowed ⊢
  rw [accrual.startTime_eq, accrual.endTime_eq, accrual.totalStaked_eq]
  exact windowed

theorem PoolChange.windowed {context : Context} {selfHash : ContractPackageHash}
    {poolId : UInt64} {members members' : Members} {call : Call} {storage : Storage}
    {events : List Event} (le : now ≤ context.blocktime)
    (read : getPool poolId storage = .ok pool)
    (allowed : keepsWindow context call storage)
    (change : PoolChange context selfHash poolId pool members call events pool' members')
    (windowed : Windowed now pool) : Windowed context.blocktime pool' := by
  cases change with
  | @settle _ accrued credit user' totalStaked _ _ accrual settled debt staked =>
      have updated := (windowed.wait le).accrue accrual
      rcases updated with proper | ⟨elapsed, empty⟩
      · exact .inl proper
      · cases settled with
        | first nonzero opened fresh total =>
            have proper := allowed.of_getPool read
            rw [← accrual.startTime_eq, ← accrual.endTime_eq] at proper
            exact .inl proper
        | topUp nonzero opened staking total =>
            have proper := allowed.of_getPool read
            rw [← accrual.startTime_eq, ← accrual.endTime_eq] at proper
            exact .inl proper
        | withdraw nonzero total => omega
  | @emergencyWithdraw amount totalStaked whole nonzero staked =>
      rcases windowed.wait le with proper | ⟨elapsed, empty⟩
      · exact .inl proper
      · omega
  | @stopReward accrued credit refund accrual owner running refunds =>
      rcases allowed.of_getPool read with started | empty
      · left
        change accrued.startTime < context.blocktime
        rw [accrual.startTime_eq]
        exact started
      · right
        refine ⟨UInt64.le_refl _, ?_⟩
        change accrued.totalStaked.toNat = 0
        rw [accrual.totalStaked_eq, empty]

end Window

section Runs

variable {E : Type} {around : Surroundings E}

theorem windowed_invariant (around : Surroundings E) :
    Invariant around keepsWindow fun now book _ _ =>
      ∀ poolId pool, book.pool poolId = some pool → Windowed now pool where
  wait := fun windowed le poolId pool found => (windowed poolId pool found).wait le
  drift := fun windowed _ => windowed
  change := by
    intro now book e log context call storage requests events book' e'
      windowed le represents allowed change answered poolId pool' found'
    rcases change.pool_cases found' with
      same | ⟨new, rfl⟩ | ⟨pool, valid, found, step⟩
    · exact (windowed poolId pool' same).wait le
    · rcases allowed with proper | elapsed
      · exact .inl proper
      · refine .inr ⟨by rw [elapsed]; exact UInt64.le_refl _, ?_⟩
        rw [new.staked]
        rfl
    · exact step.windowed le (represents.getPool_eq_ok.mpr ⟨valid, found⟩) allowed
        (windowed poolId pool found)

/-- In every run whose calls keep to `keepsWindow`, at every later block time the
subtractions of `update_pool` and `stop_reward` do not wrap and their divisors
are not zero. -/
theorem window_sound {admin : AccountHash} {start : UInt64} {outside : E}
    {moment : Moment E}
    (run : Run around keepsWindow (installed admin start outside) moment)
    {poolId : UInt64} {pool : StakePool}
    (read : getPool poolId moment.world.storage = .ok pool) {later : UInt64}
    (le : moment.now ≤ later) : WindowSound pool later := by
  have initially : ∀ (now : UInt64) admin selfHash (_ : E) poolId pool,
      (Book.empty admin selfHash).pool poolId = some pool → Windowed now pool := by
    intro now admin selfHash _ poolId pool found
    cases found
  rcases run.from_installed (windowed_invariant around) (fun now admin selfHash e =>
      initially now admin selfHash e) with
    ⟨-, admin', fresh⟩ | ⟨book, represents, windowed⟩
  · rw [fresh] at read
    exact absurd read getPool_installed
  · obtain ⟨-, found⟩ := represents.getPool_eq_ok.mp read
    exact (windowed poolId pool found).sound le

end Runs

section Sample

open Sample

def stoppedInside : Moment Erc20Ledger :=
  after keepsWindow
    [setUp, (10, owner, .addPool tokenA tokenA 100 200 18 (units 1000)),
      (20, staker 1, .deposit (units 10) 0), (150, owner, .stopReward 0)]
    opening (by decide +kernel)

private theorem run_stoppedInside : Run around keepsWindow opening stoppedInside :=
  run_after _

theorem window_sound_stoppedInside :
    WindowSound (poolOf 0 stoppedInside (by decide +kernel)) 180 :=
  window_sound run_stoppedInside (read_poolOf _) (by decide +kernel)

def inverted : Moment Erc20Ledger :=
  after unrestricted
    [setUp, (10, owner, .addPool tokenA tokenA 100 50 18 (units 1000))]
    opening (by decide +kernel)

private theorem run_inverted : Run around unrestricted opening inverted :=
  run_after _

/-- `add_pool` accepts a window in which `stop_reward` subtracts below zero. -/
theorem window_unsound :
    ¬ ∀ moment, Run around unrestricted opening moment → ∀ poolId pool,
      getPool poolId moment.world.storage = .ok pool → ∀ later, moment.now ≤ later →
        WindowSound pool later := by
  intro claim
  have sound := claim inverted run_inverted 0 (poolOf 0 inverted (by decide +kernel))
    (read_poolOf _) 20 (by decide +kernel)
  exact absurd (sound.stop (by decide +kernel)).1 (by decide +kernel)

end Sample

end CasperContracts.Staking
