import CasperContracts.Staking.Emission

/-!
# Stopping a pool

A stop refunds the part of the reward that belongs to the rest of the window
and moves the end to the present.  After it the pool credits nothing, so the
refund and the credits share one budget; unless the stop came before the start,
when the window is left ending before it starts and a later update credits the
whole reward once more.
-/

namespace CasperContracts.Staking

open CasperContracts.Basis Host Prog

/-- No withdrawal from the pool credits a window that ends before it starts. -/
def neverWraps (poolId : UInt64) (context : Context) : Call → Storage → Prop
  | .withdraw _ id, storage =>
      id = poolId → OnStored poolId storage fun pool => ¬ pool.WrapsAt context.blocktime
  | _, _ => True

instance (poolId : UInt64) (context : Context) :
    (call : Call) → (storage : Storage) →
      Decidable (neverWraps poolId context call storage)
  | .withdraw _ id, storage =>
      inferInstanceAs (Decidable (id = poolId → OnStored poolId storage fun pool =>
        ¬ pool.WrapsAt context.blocktime))
  | .init _, _ | .addPool .., _ | .deposit .., _ | .emergencyWithdraw _, _
  | .stopReward _, _ | .saveMe .., _ | .setAdmin _, _ => .isTrue trivial

def stopsIn (log : List Event) : List (UInt64 × U256) :=
  log.filterMap fun event =>
    match event with
    | .stopped _ now refund => some (now, refund)
    | _ => none

@[simp] theorem stopsIn_append (log more : List Event) :
    stopsIn (log ++ more) = stopsIn log ++ stopsIn more :=
  List.filterMap_append

/-- A scheduled pool that has been stopped at most once, with a refund for the
rest of its window. -/
structure Refunded (first : StakePool) (now : UInt64) (pool : StakePool)
    (log : List Event) : Prop where
  scheduled : Scheduled first now pool log
  stage : pool.endTime = first.endTime ∧ stopsIn log = [] ∨
    pool.endTime.toNat ≤ pool.lastRewardTimestamp.toNat ∧
      ∃ refund, stopsIn log = [(pool.endTime, refund)] ∧
        refund.toNat * (first.endTime.toNat - first.startTime.toNat) ≤
          first.totalReward.toNat *
            (first.endTime.toNat - max pool.endTime.toNat first.startTime.toNat)

section Changes

variable {context : Context} {selfHash : ContractPackageHash} {poolId now : UInt64}
  {first pool pool' accrued : StakePool} {members members' : Members} {call : Call}
  {requests : List TokenCall} {log events : List Event} {user user' : UserInfo}
  {credit : Option Credit}

/-- Only withdrawals can reach a wrapped window: a deposit and a stop need the
end to lie ahead. -/
theorem PoolChange.unwrapped {storage : Storage}
    (read : getPool poolId storage = .ok pool)
    (allowed : neverWraps poolId context call storage)
    (change : PoolChange context selfHash poolId pool members call events pool' members')
    (updates : call ≠ .emergencyWithdraw poolId) :
    ¬ pool.WrapsAt context.blocktime := by
  intro wraps
  have ended : pool.endTime < context.blocktime :=
    UInt64.lt_of_lt_of_le wraps.1 wraps.2.2.2.1
  cases change with
  | settle accrual settled debt staked =>
      cases settled with
      | first nonzero opened =>
          rw [accrual.endTime_eq] at opened
          exact absurd opened (UInt64.not_le.mpr ended)
      | topUp nonzero opened =>
          rw [accrual.endTime_eq] at opened
          exact absurd opened (UInt64.not_le.mpr ended)
      | withdraw => exact (allowed rfl).of_getPool read wraps
  | emergencyWithdraw => exact absurd rfl updates
  | stopReward accrual owner running => exact UInt64.lt_asymm ended running

theorem stopsIn_creditEvents : stopsIn (creditEvents poolId credit) = [] := by
  cases credit <;> rfl

theorem Settled.stopsIn_eq
    (settled : Settled context selfHash poolId accrued user user' call requests events) :
    stopsIn events = [] := by
  cases settled <;> rfl

/-- The refund of a stop, where its differences do not wrap. -/
theorem RefundOf.refund_le {refund : U256} (refunds : RefundOf now pool refund)
    (proper : pool.startTime < pool.endTime) (running : now < pool.endTime) :
    refund.toNat * (pool.endTime.toNat - pool.startTime.toNat) ≤
      pool.totalReward.toNat *
        (pool.endTime.toNat - max now.toNat pool.startTime.toNat) := by
  rw [UInt64.lt_iff_toNat_lt] at proper running
  have latest := getMax_toNat now pool.startTime
  have whole := toNat_sub_of_le (le_of_lt proper)
  have rest : (pool.endTime - getMax now pool.startTime).toNat =
      pool.endTime.toNat - max now.toNat pool.startTime.toNat := by
    rw [toNat_sub_of_le (by omega), latest]
  rw [refunds.2, whole, rest, Nat.mul_comm pool.totalReward.toNat]
  exact Nat.div_mul_le_self _ _

/-- Every change of a pool that does not wrap keeps its refund within the rest of
the window. -/
theorem PoolChange.refunded {storage : Storage} (proper : first.startTime < first.endTime)
    (le : now ≤ context.blocktime) (read : getPool poolId storage = .ok pool)
    (allowed : neverWraps poolId context call storage)
    (change : PoolChange context selfHash poolId pool members call events pool' members')
    (refunded : Refunded first now pool log) :
    Refunded first context.blocktime pool' (log ++ events) where
  scheduled := change.scheduled proper le (change.unwrapped read allowed)
    refunded.scheduled
  stage := by
    cases change with
    | @settle _ accrued credit _ totalStaked _ settledEvents accrual settled =>
        have noStop : stopsIn (log ++ (creditEvents poolId credit ++ settledEvents)) =
            stopsIn log := by
          simp [stopsIn_creditEvents, settled.stopsIn_eq]
        change accrued.endTime = _ ∧ _ ∨ accrued.endTime.toNat ≤
          accrued.lastRewardTimestamp.toNat ∧ ∃ refund, _ = [(accrued.endTime, refund)] ∧
            _ ≤ _ * (_ - max accrued.endTime.toNat _)
        rw [noStop, accrual.endTime_eq]
        rcases refunded.stage with running | ⟨stopped, refund⟩
        · exact .inl running
        · exact .inr ⟨le_trans stopped accrual.last_le, refund⟩
    | emergencyWithdraw whole nonzero staked =>
        have noStop : ∀ amount, stopsIn (log ++
            [.emergencyWithdrawn poolId context.caller amount]) = stopsIn log := by
          simp [stopsIn]
        rw [noStop]
        exact refunded.stage
    | @stopReward accrued credit refund accrual owner running refunds =>
        have sameEnd := refunded.scheduled.endTime_of_running le running
        have present := refunded.scheduled.last_of_running le running accrual
        have start := refunded.scheduled.startTime_eq
        have notBefore : stopsIn log = [] := by
          rcases refunded.stage with ⟨-, none⟩ | ⟨stopped, -⟩
          · exact none
          · have last := refunded.scheduled.last_le
            rw [UInt64.lt_iff_toNat_lt] at running
            rw [UInt64.le_iff_toNat_le] at le
            omega
        refine .inr ⟨le_of_eq present.symm, refund, ?_, ?_⟩
        · simp [notBefore, stopsIn_creditEvents]
          rfl
        · have bound := refunds.refund_le (by rw [sameEnd, start]; exact proper) running
          rw [sameEnd, start, refunded.scheduled.totalReward_eq] at bound
          exact bound

/-- A change of a stopped pool that does not wrap leaves the accumulator as it
is. -/
theorem PoolChange.acc_of_stopped (scheduled : Scheduled first now pool log)
    (unwrapped : call ≠ .emergencyWithdraw poolId → ¬ pool.WrapsAt context.blocktime)
    (change : PoolChange context selfHash poolId pool members call events pool' members')
    (stopped : pool.endTime.toNat ≤ pool.lastRewardTimestamp.toNat) :
    pool'.accTokenPerShare.toNat = pool.accTokenPerShare.toNat := by
  cases change with
  | settle accrual settled =>
      have same := scheduled.acc_of_stopped (unwrapped settled.updates) stopped accrual
      exact same
  | emergencyWithdraw => rfl
  | stopReward accrual =>
      have same := scheduled.acc_of_stopped (unwrapped (by simp)) stopped accrual
      exact same

/-- The refund and the credits share the reward of the window. -/
theorem Refunded.within {refund : U256} {stop : UInt64}
    (proper : first.startTime < first.endTime) (refunded : Refunded first now pool log)
    (stopped : (stop, refund) ∈ stopsIn log) :
    pool.endTime = stop ∧ pool.endTime.toNat ≤ pool.lastRewardTimestamp.toNat ∧
      refund.toNat + rewardsIn log ≤ first.totalReward.toNat := by
  rw [UInt64.lt_iff_toNat_lt] at proper
  rcases refunded.stage with ⟨-, none⟩ | ⟨updated, other, one, share⟩
  · rw [none] at stopped
    cases stopped
  · rw [one, List.mem_singleton, Prod.mk.injEq] at stopped
    obtain ⟨rfl, rfl⟩ := stopped
    refine ⟨rfl, updated, ?_⟩
    have credits := refunded.scheduled.within
    have finish := refunded.scheduled.end_le
    have window : 0 < first.endTime.toNat - first.startTime.toNat :=
      Nat.sub_pos_of_lt proper
    refine Nat.le_of_mul_le_mul_right ?_ window
    rw [Nat.add_mul]
    apply le_trans (Nat.add_le_add share credits)
    rw [← Nat.mul_add]
    exact Nat.mul_le_mul_left _ (by omega)

end Changes

theorem refunded_invariant {poolId : UInt64} {first : StakePool}
    (proper : first.startTime < first.endTime) :
    PoolInvariant (neverWraps poolId) poolId fun now pool _ log =>
      Refunded first now pool log where
  wait := fun refunded le => ⟨refunded.scheduled.wait le, refunded.stage⟩
  change := fun refunded le read allowed change =>
    change.refunded proper le read allowed refunded

theorem frozen_invariant {poolId : UInt64} {first : StakePool} (acc : Nat)
    (proper : first.startTime < first.endTime) :
    PoolInvariant (neverWraps poolId) poolId fun now pool _ log =>
      Refunded first now pool log ∧ stopsIn log ≠ [] ∧
        pool.accTokenPerShare.toNat = acc where
  wait := fun ⟨refunded, stopped, same⟩ le =>
    ⟨⟨refunded.scheduled.wait le, refunded.stage⟩, stopped, same⟩
  change := by
    intro now pool members log context call storage selfHash events pool' members' kept
        le read allowed change
    obtain ⟨refunded, stopped, same⟩ := kept
    obtain ⟨⟨stop, refund⟩, member⟩ := List.exists_mem_of_ne_nil _ stopped
    have updated := (refunded.within proper member).2.1
    refine ⟨change.refunded proper le read allowed refunded, by simp [stopped], ?_⟩
    rw [← same]
    exact change.acc_of_stopped refunded.scheduled (change.unwrapped read allowed) updated

section Runs

variable {E : Type} {around : Surroundings E} {admin : AccountHash} {start : UInt64}
variable {outside : E} {poolId : UInt64} {first : StakePool}

/-- In a run in which no withdrawal credits a wrapped window: from a successful
stop on the accumulator of the pool keeps its value, and the refund together
with all rewards the pool ever credits is within its total reward. -/
theorem stop_freezes_pool {stopped moment : Moment E} {stop : UInt64} {refund : U256}
    (proper : first.startTime < first.endTime)
    (run : Run around (neverWraps poolId) (installed admin start outside) stopped)
    (stops : .stopped poolId stop refund ∈ stopped.world.log)
    (onward : Run around (neverWraps poolId) stopped moment)
    (once : createdUnder poolId moment.world.log = [first]) :
    (∀ pool pool', getPool poolId stopped.world.storage = .ok pool →
        getPool poolId moment.world.storage = .ok pool' →
        pool'.accTokenPerShare = pool.accTokenPerShare) ∧
      refund.toNat + rewardsIn (eventsOf poolId moment.world.log) ≤
        first.totalReward.toNat := by
  have recorded : (stop, refund) ∈ stopsIn (eventsOf poolId stopped.world.log) := by
    have member : Event.stopped poolId stop refund ∈
        eventsOf poolId stopped.world.log := by
      simpa [eventsOf, Event.poolId] using stops
    exact List.mem_filterMap.mpr ⟨_, member, rfl⟩
  have stillRecorded : (stop, refund) ∈ stopsIn (eventsOf poolId moment.world.log) := by
    obtain ⟨more, log⟩ := onward.log_extends
    rw [log, eventsOf_append, stopsIn_append]
    exact List.mem_append_left _ recorded
  have born : createdUnder poolId stopped.world.log ≠ [] := by
    intro none
    rw [(run.unborn none).2] at recorded
    cases recorded
  have onceThere := onward.created_earlier once born
  obtain ⟨book, pool, represents, found, refunded⟩ :=
    run.pool (refunded_invariant proper)
      (fun _ new => ⟨.of_new new, .inl ⟨rfl, rfl⟩⟩) onceThere
  obtain ⟨book', pool', represents', found', refunded', -, sameAcc⟩ :=
    onward.pool_onward (frozen_invariant _ proper) represents found
      ⟨refunded, List.ne_nil_of_mem recorded, rfl⟩ onceThere once
  refine ⟨?_, (refunded'.within proper stillRecorded).2.2⟩
  intro before after readBefore readAfter
  have sameBefore := (represents.getPool_eq_ok.mp readBefore).2
  have sameAfter := (represents'.getPool_eq_ok.mp readAfter).2
  rw [found, Option.some.injEq] at sameBefore
  rw [found', Option.some.injEq] at sameAfter
  rw [← sameBefore, ← sameAfter]
  exact U256.toNat_injective sameAcc

end Runs

section Sample

open Sample

/-- A pool with a staker, stopped within its window. -/
def frozen : Moment Erc20Ledger :=
  after (neverWraps 0)
    [setUp, (10, owner, .addPool tokenA tokenA 100 200 18 (units 1000)),
      (20, staker 1, .deposit (units 10) 0), (150, owner, .stopReward 0)]
    opening (by decide +kernel)

def frozenLater : Moment Erc20Ledger :=
  after (neverWraps 0) [(170, staker 1, .withdraw (units 10) 0)] frozen (by decide +kernel)

private theorem run_frozen : Run around (neverWraps 0) opening frozen :=
  run_after _

private theorem run_frozenLater : Run around (neverWraps 0) frozen frozenLater :=
  run_after _

theorem stop_freezes_pool_frozen :
    (∀ pool pool', getPool 0 frozen.world.storage = .ok pool →
        getPool 0 frozenLater.world.storage = .ok pool' →
        pool'.accTokenPerShare = pool.accTokenPerShare) ∧
      (units 500).toNat + rewardsIn (eventsOf 0 frozenLater.world.log) ≤
        usual.totalReward.toNat :=
  have stops : Event.stopped 0 150 (units 500) ∈ frozen.world.log := by decide +kernel
  have once : createdUnder 0 frozenLater.world.log = [usual] := by decide +kernel
  stop_freezes_pool (by decide) run_frozen stops run_frozenLater once

/-- A pool with a staker, stopped before its start, and another pool that is not. -/
def stoppedEarly : Moment Erc20Ledger :=
  after unrestricted
    [setUp, (10, owner, .addPool tokenA tokenA 100 200 18 (units 1000)),
      (10, owner, .addPool tokenA tokenA 100 200 18 (units 1000)),
      (20, staker 1, .deposit (units 10) 0), (30, owner, .stopReward 0)]
    opening (by decide +kernel)

def stoppedEarlyLater : Moment Erc20Ledger :=
  after unrestricted [(150, staker 1, .withdraw (units 5) 0)] stoppedEarly
    (by decide +kernel)

private theorem run_stoppedEarly : Run around unrestricted opening stoppedEarly :=
  run_after _

private theorem run_stoppedEarlyLater :
    Run around unrestricted stoppedEarly stoppedEarlyLater :=
  run_after _

/-- A pool that is stopped before its start and refunded in full pays its whole
reward once more. -/
theorem stop_exceeds_budget :
    ¬ ∀ stopped moment first stop refund, Run around unrestricted opening stopped →
      .stopped 0 stop refund ∈ stopped.world.log →
      Run around unrestricted stopped moment →
      createdUnder 0 moment.world.log = [first] → first.startTime < first.endTime →
      (∀ pool pool', getPool 0 stopped.world.storage = .ok pool →
          getPool 0 moment.world.storage = .ok pool' →
          pool'.accTokenPerShare = pool.accTokenPerShare) ∧
        refund.toNat + rewardsIn (eventsOf 0 moment.world.log) ≤
          first.totalReward.toNat := by
  intro claim
  have stops : Event.stopped 0 30 (units 1000) ∈ stoppedEarly.world.log := by
    decide +kernel
  have exceeds : createdUnder 0 stoppedEarlyLater.world.log = [usual] ∧
      usual.totalReward.toNat <
        (units 1000).toNat + rewardsIn (eventsOf 0 stoppedEarlyLater.world.log) := by
    decide +kernel
  have budget := (claim stoppedEarly stoppedEarlyLater _ _ _ run_stoppedEarly stops
    run_stoppedEarlyLater exceeds.1 (by decide)).2
  exact absurd budget (Nat.not_le.mpr exceeds.2)

end Sample

end CasperContracts.Staking
