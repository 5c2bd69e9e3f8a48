import CasperContracts.Staking.Allocation
import CasperContracts.Vesting.Allocation

/-!
# Ids of both contracts

Both contracts hand out ids from an index that they read before a request and
write back after it.  An id is handed out twice exactly where an allocating call
is made inside another one.
-/

namespace CasperContracts

open CasperContracts.Basis Host

section Runs

variable {E : Type} {admin : AccountHash} {paused : Bool} {outside : E}
variable {v v' : Vesting.VestConfig E} {s s' : Staking.StakeConfig E}

/-- As long as no `lock` is made inside another one, and no `add_pool` inside
another one, the index never decreases, every id is handed out once, and no step
of an allocating call changes a lock or a pool that is stored. -/
theorem ids_allocated_once
    (vesting : SmallSteps Vesting.Entry.program Vesting.registry.Lone
      (Vesting.VestConfig.installed admin paused outside) v)
    (vestingLater : SmallSteps Vesting.Entry.program Vesting.registry.Lone v v')
    (staking : SmallSteps Staking.Entry.program Staking.registry.Lone
      (Staking.StakeConfig.installed admin outside) s)
    (stakingLater : SmallSteps Staking.Entry.program Staking.registry.Lone s s') :
    (((Vesting.locksIn v'.world.log).map Vesting.VestInfo.id).Nodup ∧
      (∀ index index', v.world.storage.index = some index →
        v'.world.storage.index = some index' → index ≤ index') ∧
      ∀ v'' frame, SmallStep Vesting.Entry.program Vesting.registry.Lone v' v'' →
        v'.frames.head? = some frame → frame.entry.2.creates →
        ∀ lockId lock, Vesting.storedLock lockId v'.world.storage = some lock →
          Vesting.storedLock lockId v''.world.storage = some lock) ∧
    ((Staking.poolsCreated s'.world.log).map Staking.StakePool.id).Nodup ∧
      (∀ index index', s.world.storage.index = some index →
        s'.world.storage.index = some index' → index ≤ index') ∧
      ∀ s'' frame, SmallStep Staking.Entry.program Staking.registry.Lone s' s'' →
        s'.frames.head? = some frame → frame.entry.2.creates →
        ∀ poolId pool, Staking.storedPool poolId s'.world.storage = some pool →
          Staking.storedPool poolId s''.world.storage = some pool :=
  ⟨Vesting.lock_ids_once vesting vestingLater, Staking.pool_ids_once staking stakingLater⟩

end Runs

/-- A lock given away, and a stake taken, while the next id is being handed out. -/
theorem ids_allocated_once_calledBack :
    ((Vesting.locksIn Vesting.Sample.givenAwayInside.log).map Vesting.VestInfo.id).Nodup ∧
      ((Staking.poolsCreated Staking.Sample.depositedWhileAdding.log).map
        Staking.StakePool.id).Nodup := by
  have once := ids_allocated_once Vesting.Sample.steps_givenAwayInside .refl
    Staking.Sample.steps_depositedWhileAdding .refl
  exact ⟨once.1.1, once.2.1⟩

/-- A `lock` inside a `lock` takes the same id, and so does an `add_pool` inside an
`add_pool`. -/
theorem ids_shared :
    (¬ ∀ c, SmallSteps Vesting.Entry.program Vesting.registry.Reentrant
        (Vesting.VestConfig.installed Staking.Sample.owner false (Erc20Ledger.endowed 1000000)) c →
      ((Vesting.locksIn c.world.log).map Vesting.VestInfo.id).Nodup) ∧
    ¬ ∀ c, SmallSteps Staking.Entry.program Staking.registry.Reentrant
        (Staking.StakeConfig.installed Staking.Sample.owner (Erc20Ledger.endowed 1000000)) c →
      ((Staking.poolsCreated c.world.log).map Staking.StakePool.id).Nodup := by
  constructor
  · intro claim
    exact absurd (claim _ Vesting.Sample.steps_lockedInside) (by decide +kernel)
  · intro claim
    exact absurd (claim _ Staking.Sample.steps_addedInside) (by decide +kernel)

end CasperContracts
