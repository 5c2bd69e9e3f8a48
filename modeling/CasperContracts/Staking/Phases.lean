import CasperContracts.Staking.Change

/-!
# From the programs to the changes

Each entry point is inverted once, for an arbitrary response of the token
contracts: what it read and computed before its requests, the requests
themselves, and what it wrote afterwards.  With quiet tokens the phases join
into a `Change`.
-/

namespace CasperContracts.Staking

open CasperContracts.Basis Host Prog

section Inversion

variable {E : Type} {respond : TokenCall → StakeWorld E → StakeWorld E → Prop}
variable {context : Context} {poolId : UInt64} {w w' : StakeWorld E} {book : Book}

@[simp] theorem runs_arith {α : Type} {result : Option α} {value : α} :
    Runs respond (arith result) w value w' ↔ result = some value ∧ w = w' := by
  simp [arith]

@[simp] theorem runs_revertIf {condition : Prop} [Decidable condition]
    {error : ApiError} {done : Unit} :
    Runs respond (revertIf condition error) w done w' ↔ ¬ condition ∧ w = w' := by
  unfold revertIf
  split
  · rename_i holds
    simp [Runs, holds]
  · rename_i fails
    simp [fails]

/-- `update_pool` reads a pool, brings it up to date and records the credit. -/
theorem runs_updatePool {updated : StakePool} :
    Runs respond (updatePool context poolId) w updated w' ↔
      ∃ pool credit, getPool poolId w.storage = .ok pool ∧
        updatedPool context.blocktime pool = .ok (updated, credit) ∧
        w' = { w with log := w.log ++ creditEvents poolId credit } := by
  simp only [updatePool, runs_bind, runs_reads, runs_ofExcept]
  constructor
  · intro given
    obtain ⟨pool, _, ⟨read, rfl⟩, ⟨result, credit⟩, _, ⟨computed, rfl⟩, rest⟩ := given
    refine ⟨pool, credit, read, ?_⟩
    cases credit with
    | none =>
        simp at rest
        obtain ⟨rfl, rfl⟩ := rest
        exact ⟨computed, by simp [creditEvents]⟩
    | some credit =>
        simp at rest
        obtain ⟨rfl, rfl⟩ := rest
        exact ⟨computed, rfl⟩
  · intro given
    obtain ⟨pool, credit, read, computed, rfl⟩ := given
    refine ⟨pool, _, ⟨read, rfl⟩, (updated, credit), _, ⟨computed, rfl⟩, ?_⟩
    cases credit with
    | none => simp [creditEvents]
    | some credit => simp [creditEvents]

theorem runs_arith_bind {α β : Type} {result : Option α} {f : α → Contract β}
    {value : β} :
    Runs respond (arith result >>= f) w value w' ↔
      ∃ a, result = some a ∧ Runs respond (f a) w value w' := by
  simp [and_assoc]

theorem runs_revertIf_bind {condition : Prop} [Decidable condition]
    {error : ApiError} {β : Type} {f : Unit → Contract β} {value : β} :
    Runs respond (revertIf condition error >>= f) w value w' ↔
      ¬ condition ∧ Runs respond (f ()) w value w' := by
  simp only [runs_unit_bind, runs_revertIf, and_assoc, exists_and_left,
    exists_eq_left']

theorem runs_updatePool_bind {β : Type} {f : StakePool → Contract β} {value : β} :
    Runs respond (updatePool context poolId >>= f) w value w' ↔
      ∃ pool updated credit, getPool poolId w.storage = .ok pool ∧
        updatedPool context.blocktime pool = .ok (updated, credit) ∧
        Runs respond (f updated)
          { w with log := w.log ++ creditEvents poolId credit } value w' := by
  simp only [runs_bind, runs_updatePool]
  constructor
  · intro given
    obtain ⟨updated, _, ⟨pool, credit, read, computed, rfl⟩, rest⟩ := given
    exact ⟨pool, updated, credit, read, computed, rest⟩
  · intro given
    obtain ⟨pool, updated, credit, read, computed, rest⟩ := given
    exact ⟨updated, _, ⟨pool, credit, read, computed, rfl⟩, rest⟩

/-! What these steps contribute to the failures of a program. -/

theorem fails_arith_bind {α β : Type} {result : Option α} {f : α → Contract β}
    {failure : Failure} :
    Fails respond (arith result >>= f) w failure ↔
      result = none ∧ failure = .panic ∨
        ∃ a, result = some a ∧ Fails respond (f a) w failure := by
  rw [arith, fails_ofExcept_bind]
  cases result with
  | none => simp [orPanic, eq_comm]
  | some value => simp [orPanic]

theorem fails_revertIf_bind {condition : Prop} [Decidable condition]
    {error : ApiError} {β : Type} {f : Unit → Contract β} {failure : Failure} :
    Fails respond (revertIf condition error >>= f) w failure ↔
      condition ∧ failure = .revert error ∨
        ¬ condition ∧ Fails respond (f ()) w failure := by
  unfold revertIf
  by_cases holds : condition
  · simp [holds, fails_unit_bind, Fails, Runs, eq_comm]
  · simp [holds, fails_unit_bind, fails_pure]

theorem fails_updatePool_bind {β : Type} {f : StakePool → Contract β}
    {failure : Failure} :
    Fails respond (updatePool context poolId >>= f) w failure ↔
      getPool poolId w.storage = .error failure ∨
        ∃ pool, getPool poolId w.storage = .ok pool ∧
          (updatedPool context.blocktime pool = .error failure ∨
            ∃ updated credit, updatedPool context.blocktime pool = .ok (updated, credit) ∧
              Fails respond (f updated)
                { w with log := w.log ++ creditEvents poolId credit } failure) := by
  have inside : Fails respond (updatePool context poolId) w failure ↔
      getPool poolId w.storage = .error failure ∨
        ∃ pool, getPool poolId w.storage = .ok pool ∧
          updatedPool context.blocktime pool = .error failure := by
    simp only [updatePool, fails_reads_bind, fails_ofExcept_bind]
    apply or_congr_right
    apply exists_congr
    intro pool
    apply and_congr_right
    intro _
    constructor
    · intro given
      rcases given with failed | ⟨⟨updated, credit⟩, -, later⟩
      · exact failed
      · cases credit <;> simp [fails_bind, fails_pure, record, Fails] at later
    · intro failed
      exact .inl failed
  rw [fails_bind, inside]
  simp only [runs_updatePool]
  constructor
  · intro given
    rcases given with (noPool | ⟨pool, read, failed⟩) |
      ⟨updated, _, ⟨pool, credit, read, computed, rfl⟩, later⟩
    · exact .inl noPool
    · exact .inr ⟨pool, read, .inl failed⟩
    · exact .inr ⟨pool, read, .inr ⟨updated, credit, computed, later⟩⟩
  · intro given
    rcases given with noPool | ⟨pool, read, failed | ⟨updated, credit, computed, later⟩⟩
    · exact .inl (.inl noPool)
    · exact .inl (.inr ⟨pool, read, failed⟩)
    · exact .inr ⟨updated, _, ⟨pool, credit, read, computed, rfl⟩, later⟩

/-! ## Payments -/

variable {selfHash : ContractPackageHash} {pending amount : U256}
  {rewardToken stakingToken : ContractHash}

theorem payDeposit_of_zero (zero : pending.toNat = 0) :
    payDeposit context pending amount rewardToken stakingToken = (do
      let spender ← Prog.reads selfContractHash
      Prog.request
        (InteractErc20.transferFrom stakingToken context.caller spender amount)) := by
  simp [payDeposit, DepositScenario.getScenario, zero]

theorem payDeposit_of_lt (equal : rewardToken = stakingToken)
    (greater : amount.toNat < pending.toNat) :
    payDeposit context pending amount rewardToken stakingToken = (do
      let net ← arith (pending.checkedSub amount)
      Prog.request (InteractErc20.transfer stakingToken context.caller net)) := by
  have nonzero : pending.toNat ≠ 0 := by omega
  simp [payDeposit, DepositScenario.getScenario, nonzero, equal, greater]

theorem payDeposit_of_le (equal : rewardToken = stakingToken)
    (nonzero : pending.toNat ≠ 0) (le : pending.toNat ≤ amount.toNat) :
    payDeposit context pending amount rewardToken stakingToken = (do
      let spender ← Prog.reads selfContractHash
      let net ← arith (amount.checkedSub pending)
      Prog.request
        (InteractErc20.transferFrom stakingToken context.caller spender net)) := by
  simp [payDeposit, DepositScenario.getScenario, nonzero, equal, Nat.not_lt.mpr le]

theorem payDeposit_of_ne (different : rewardToken ≠ stakingToken)
    (nonzero : pending.toNat ≠ 0) :
    payDeposit context pending amount rewardToken stakingToken = (do
      Prog.request (InteractErc20.transfer rewardToken context.caller pending)
      let spender ← Prog.reads selfContractHash
      Prog.request
        (InteractErc20.transferFrom stakingToken context.caller spender amount)) := by
  simp [payDeposit, DepositScenario.getScenario, nonzero, different]

theorem payWithdraw_of_zero (zero : pending.toNat = 0) :
    payWithdraw context pending amount rewardToken stakingToken =
      Prog.request (InteractErc20.transfer stakingToken context.caller amount) := by
  simp [payWithdraw, WithdrawScenario.getScenario, zero]

theorem payWithdraw_of_eq (equal : rewardToken = stakingToken)
    (nonzero : pending.toNat ≠ 0) :
    payWithdraw context pending amount rewardToken stakingToken = (do
      let total ← arith (pending.checkedAdd amount)
      Prog.request (InteractErc20.transfer stakingToken context.caller total)) := by
  simp [payWithdraw, WithdrawScenario.getScenario, nonzero, equal]

theorem payWithdraw_of_ne (different : rewardToken ≠ stakingToken)
    (nonzero : pending.toNat ≠ 0) :
    payWithdraw context pending amount rewardToken stakingToken = (do
      Prog.request (InteractErc20.transfer rewardToken context.caller pending)
      Prog.request (InteractErc20.transfer stakingToken context.caller amount)) := by
  simp [payWithdraw, WithdrawScenario.getScenario, nonzero, different]

/-- The payment of a deposit is one of the four request sequences. -/
theorem runs_payDeposit
    (keepsSelf : ∀ c u, respond c w u →
      u.storage.selfContractHash = w.storage.selfContractHash)
    (run : Runs respond (payDeposit context pending amount rewardToken stakingToken)
      w () w')
    (self : w.storage.selfContractHash = some selfHash) :
    ∃ requests, DepositPayment selfHash context.caller pending amount rewardToken
        stakingToken requests ∧ Chain respond requests w w' := by
  have known : selfContractHash w.storage = .ok selfHash := selfContractHash_eq_ok.mpr self
  by_cases zero : pending.toNat = 0
  · simp only [payDeposit_of_zero zero, runs_reads_bind, runs_request, known,
      Except.ok.injEq, exists_eq_left'] at run
    exact ⟨_, .pendingZero zero, .single run⟩
  · by_cases equal : rewardToken = stakingToken
    · by_cases greater : amount.toNat < pending.toNat
      · simp only [payDeposit_of_lt equal greater, runs_arith_bind, runs_request,
          U256.checkedSub_eq_some] at run
        obtain ⟨net, difference, answered⟩ := run
        exact ⟨_, .equalTokenPendingGreater equal difference, .single answered⟩
      · simp only [payDeposit_of_le equal zero (Nat.not_lt.mp greater), runs_reads_bind,
          runs_arith_bind, runs_request, known, Except.ok.injEq, exists_eq_left',
          U256.checkedSub_eq_some] at run
        obtain ⟨net, difference, answered⟩ := run
        exact ⟨_, .equalTokenPendingLesser equal difference, .single answered⟩
    · simp only [payDeposit_of_ne equal zero, runs_request_bind, runs_reads_bind,
        runs_request] at run
      obtain ⟨u, claimed, spender, read, deposited⟩ := run
      have selfAfter : u.storage.selfContractHash = some selfHash := by
        rw [keepsSelf _ _ claimed, self]
      rw [selfContractHash_eq_ok, selfAfter, Option.some.injEq] at read
      subst read
      exact ⟨_, .claimRewardAndDeposit equal, .cons claimed (.single deposited)⟩

/-- The payment of a withdrawal is one of the three request sequences. -/
theorem runs_payWithdraw
    (run : Runs respond (payWithdraw context pending amount rewardToken stakingToken)
      w () w') :
    ∃ requests, WithdrawPayment context.caller pending amount rewardToken
        stakingToken requests ∧ Chain respond requests w w' := by
  by_cases zero : pending.toNat = 0
  · simp only [payWithdraw_of_zero zero, runs_request] at run
    exact ⟨_, .pendingZero zero, .single run⟩
  · by_cases equal : rewardToken = stakingToken
    · simp only [payWithdraw_of_eq equal zero, runs_arith_bind, runs_request,
        U256.checkedAdd_eq_some] at run
      obtain ⟨total, sum, answered⟩ := run
      exact ⟨_, .equalTokens equal sum, .single answered⟩
    · simp only [payWithdraw_of_ne equal zero, runs_request_bind, runs_request] at run
      obtain ⟨u, claimed, returned⟩ := run
      exact ⟨_, .differentTokens equal, .cons claimed (.single returned)⟩

end Inversion

/-! ## Deposits and withdrawals -/

/-- A deposit or a withdrawal in its two halves: records read and brought up to
date on the book before the requests, records written back after them. -/
inductive SettlePhases {E : Type}
    (respond : TokenCall → StakeWorld E → StakeWorld E → Prop) (context : Context)
    (book : Book) (poolId : UInt64) (call : Call) (w w' : StakeWorld E) : Prop where
  | intro {pool accrued : StakePool} {credit : Option Credit} {user' : UserInfo}
      {totalStaked : U256} {requests : List TokenCall} {events : List Event}
      {u : StakeWorld E} {storage' : Storage}
      (valid : poolId ≤ book.index)
      (found : book.pool poolId = some pool)
      (accrual : Accrual context.blocktime pool accrued credit)
      (settled : Settled context book.selfHash poolId accrued
        (book.user (recordKey context.caller poolId)) user' call requests events)
      (debt : user'.rewardDebt.toNat = accrued.earned user'.amount)
      (staked : totalStaked.toNat +
          (book.user (recordKey context.caller poolId)).amount.toNat =
        accrued.totalStaked.toNat + user'.amount.toNat)
      (chain : Chain respond requests
        { w with log := w.log ++ creditEvents poolId credit } u)
      (written : updateStorage context { accrued with totalStaked } user' poolId
        u.storage = .ok storage')
      (after : w' = { u with storage := storage', log := u.log ++ events })

section Settle

variable {E : Type} {respond : TokenCall → StakeWorld E → StakeWorld E → Prop}
variable {context : Context} {poolId : UInt64} {w w' : StakeWorld E} {book : Book}

/-- What the checked computations of a settlement amount to. -/
private theorem debt_eq {pool : StakePool} {amount precision product debt : U256}
    (power : precision.toNat = U256.ten.toNat ^ (U256.ofUInt64 pool.precision).toNat)
    (productEq : product.toNat = amount.toNat * pool.accTokenPerShare.toNat)
    (debtEq : debt.toNat = product.toNat / precision.toNat) :
    debt.toNat = pool.earned amount := by
  rw [debtEq, productEq, power]
  rfl

theorem runs_deposit {amount : U256}
    (keepsSelf : ∀ c credit u,
      respond c { w with log := w.log ++ creditEvents poolId credit } u →
      u.storage.selfContractHash = w.storage.selfContractHash)
    (represents : Represents w.storage book)
    (run : Runs respond (deposit context amount poolId) w () w') :
    SettlePhases respond context book poolId (.deposit amount poolId) w w' := by
  simp only [deposit, runs_revertIf_bind, runs_updatePool_bind, runs_reads_bind,
    runs_arith_bind, U256.isZero_iff, U256.checkedAdd_eq_some] at run
  obtain ⟨amountNonzero, pool, accrued, credit, readPool, computed, opened, user,
    readUser, newAmount, total, rest⟩ := run
  obtain ⟨valid, found⟩ := represents.getPool_eq_ok.mp readPool
  obtain ⟨-, rfl⟩ := represents.getUserInfoForPool_eq_ok.mp readUser
  have accrual := accrual_of_updatedPool computed
  have positive : 0 < amount.toNat := Nat.pos_of_ne_zero amountNonzero
  have inTime : context.blocktime ≤ accrued.endTime := UInt64.not_lt.mp opened
  split at rest
  · rename_i fresh
    simp only [firstDeposit, runs_arith_bind, runs_reads_bind, runs_request_bind,
      runs_updates_bind, runs_record, U256.checkedAdd_eq_some,
      U256.checkedMul_eq_some, U256.checkedDiv_eq_some,
      U256.checkedPow_eq_some] at rest
    obtain ⟨totalStaked, stakedEq, product, productEq, precision, power, rewardDebt,
      ⟨-, debtEq⟩, spender, readSelf, u, answered, storage', written, rfl⟩ := rest
    have self := represents.selfContractHash_eq.symm.trans readSelf
    cases self
    refine .intro valid found accrual (.first positive inTime fresh total)
      (debt_eq power productEq debtEq) ?_ (.single answered) written rfl
    change totalStaked.toNat + _ = accrued.totalStaked.toNat + newAmount.toNat
    omega
  · rename_i staking
    simp only [topUpDeposit, runs_arith_bind, U256.checkedAdd_eq_some,
      U256.checkedSub_eq_some, U256.checkedMul_eq_some, U256.checkedDiv_eq_some,
      U256.checkedPow_eq_some] at rest
    obtain ⟨precision, power, product, productEq, quotient, ⟨-, quotientEq⟩, pending,
      pendingEq, totalStaked, stakedEq, newProduct, newProductEq, rewardDebt,
      ⟨-, debtEq⟩, settlement⟩ := rest
    obtain ⟨u, paid, finish⟩ := runs_unit_bind.mp settlement
    simp only [runs_updates_bind, runs_record_bind, runs_record] at finish
    obtain ⟨storage', written, rfl⟩ := finish
    obtain ⟨requests, payment, chain⟩ :=
      runs_payDeposit (fun c => keepsSelf c credit) paid represents.selfHash
    have pays := (debt_eq power productEq quotientEq).symm.trans pendingEq
    refine .intro valid found accrual
      (.topUp positive inTime (Nat.pos_of_ne_zero (by simpa using staking)) total pays
        payment)
      (debt_eq power newProductEq debtEq) ?_ chain written (by simp)
    change totalStaked.toNat + _ = accrued.totalStaked.toNat + newAmount.toNat
    omega

theorem runs_withdraw {amount : U256}
    (represents : Represents w.storage book)
    (run : Runs respond (withdraw context amount poolId) w () w') :
    SettlePhases respond context book poolId (.withdraw amount poolId) w w' := by
  simp only [withdraw, runs_revertIf_bind, runs_updatePool_bind, runs_reads_bind,
    runs_arith_bind, U256.isZero_iff, U256.checkedSub_eq_some,
    U256.checkedMul_eq_some, U256.checkedDiv_eq_some,
    U256.checkedPow_eq_some] at run
  obtain ⟨amountNonzero, user, readUser, pool, accrued, credit, readPool, computed,
    staking, newAmount, remains, precision, power, product, productEq, quotient,
    ⟨-, quotientEq⟩, pending, pendingEq, totalStaked, stakedEq, newProduct,
    newProductEq, rewardDebt, ⟨-, debtEq⟩, settlement⟩ := run
  obtain ⟨u, paid, finish⟩ := runs_unit_bind.mp settlement
  simp only [runs_updates_bind, runs_record_bind, runs_record] at finish
  obtain ⟨storage', written, rfl⟩ := finish
  obtain ⟨valid, found⟩ := represents.getPool_eq_ok.mp readPool
  obtain ⟨-, rfl⟩ := represents.getUserInfoForPool_eq_ok.mp readUser
  obtain ⟨requests, payment, chain⟩ := runs_payWithdraw paid
  have pays := (debt_eq power productEq quotientEq).symm.trans pendingEq
  refine .intro valid found (accrual_of_updatedPool computed)
    (.withdraw (Nat.pos_of_ne_zero amountNonzero) remains pays payment)
    (debt_eq power newProductEq debtEq) ?_ chain written (by simp)
  change totalStaked.toNat + _ = accrued.totalStaked.toNat + newAmount.toNat
  omega

end Settle

/-! ## The other entry points -/

section Entries

variable {E : Type} {respond : TokenCall → StakeWorld E → StakeWorld E → Prop}
variable {context : Context} {poolId : UInt64} {w w' : StakeWorld E} {book : Book}

/-- `add_pool` writes the new pool, asks for the reward and moves the index it
read before. -/
theorem runs_addPool {stakingToken rewardToken : ContractHash}
    {startTime endTime precision : UInt64} {totalReward : U256}
    (represents : Represents w.storage book)
    (run : Runs respond (addPool context stakingToken rewardToken startTime endTime
      precision totalReward) w () w') :
    ∃ pool storage u, NewPool context book.index pool ∧
      Call.addPool stakingToken rewardToken startTime endTime precision totalReward =
        .addPool pool.stakingToken pool.rewardToken pool.startTime pool.endTime
          pool.precision pool.totalReward ∧
      putPool .none book.index pool w.storage = .ok storage ∧
      respond (InteractErc20.transferFrom pool.rewardToken context.caller book.selfHash
        pool.totalReward) { w with storage } u ∧
      w' = { u with
        storage := { u.storage with index := some (book.index + 1) }
        log := u.log ++ [.poolAdded pool] } := by
  simp only [addPool, runs_revertIf_bind, runs_reads_bind, runs_updates_bind,
    runs_request_bind, runs_record, U256.isZero_iff, getKey,
    unwrapOrRevertWith_eq_ok, represents.index, Option.some.injEq,
    exists_eq_left'] at run
  obtain ⟨inTime, rewardNonzero, precise, -, -, storage, written, spender, readSelf, u,
    answered, _, ⟨⟩, rfl⟩ := run
  have self : storage.selfContractHash = some book.selfHash :=
    (represents.putPool_eq_ok written).selfHash
  rw [selfContractHash_eq_ok, self, Option.some.injEq] at readSelf
  subst readSelf
  simp only [not_or, UInt64.not_lt] at inTime
  refine ⟨_, storage, u, ?_, rfl, written, answered, rfl⟩
  exact {
    id := rfl
    start := inTime.1
    stop := inTime.2
    reward := Nat.pos_of_ne_zero rewardNonzero
    precision := not_not.mp precise
    owner := rfl
    last := rfl
    acc := rfl
    staked := rfl }

/-- `emergency_withdraw` sends out the whole recorded stake and clears the
record. -/
theorem runs_emergencyWithdraw
    (represents : Represents w.storage book)
    (run : Runs respond (emergencyWithdraw context poolId) w () w') :
    ∃ pool amount totalStaked u storage', poolId ≤ book.index ∧
      book.pool poolId = some pool ∧
      amount = (book.user (recordKey context.caller poolId)).amount ∧
      0 < amount.toNat ∧
      pool.totalStaked.toNat = totalStaked.toNat + amount.toNat ∧
      respond (InteractErc20.transfer pool.stakingToken context.caller amount) w u ∧
      updateStorage context { pool with totalStaked }
        { amount := U256.zero, rewardDebt := U256.zero } poolId u.storage =
          .ok storage' ∧
      w' = { u with
        storage := storage'
        log := u.log ++ [.emergencyWithdrawn poolId context.caller amount] } := by
  simp only [emergencyWithdraw, runs_reads_bind, runs_revertIf_bind, runs_arith_bind,
    runs_request_bind, runs_updates_bind, runs_record, U256.isZero_iff,
    U256.checkedSub_eq_some] at run
  obtain ⟨pool, readPool, user, readUser, amountNonzero, totalStaked, stakedEq, u,
    answered, storage', written, rfl⟩ := run
  obtain ⟨valid, found⟩ := represents.getPool_eq_ok.mp readPool
  obtain ⟨-, rfl⟩ := represents.getUserInfoForPool_eq_ok.mp readUser
  exact ⟨pool, _, totalStaked, u, storage', valid, found, rfl,
    Nat.pos_of_ne_zero amountNonzero, stakedEq, answered, written, rfl⟩

/-- `stop_reward` brings the pool up to date, sends the refund and writes the
pool it read back with the present time as its end. -/
theorem runs_stopReward
    (represents : Represents w.storage book)
    (run : Runs respond (stopReward context poolId) w () w') :
    ∃ pool accrued credit refund u storage', poolId ≤ book.index ∧
      book.pool poolId = some pool ∧
      Accrual context.blocktime pool accrued credit ∧
      pool.owner = context.caller ∧
      context.blocktime < pool.endTime ∧
      RefundOf context.blocktime pool refund ∧
      respond (InteractErc20.transfer pool.stakingToken context.caller refund)
        { w with log := w.log ++ creditEvents poolId credit } u ∧
      putPool (.user 1) poolId { accrued with endTime := context.blocktime }
        u.storage = .ok storage' ∧
      w' = { u with
        storage := storage'
        log := u.log ++ [.stopped poolId context.blocktime refund] } := by
  simp only [stopReward, runs_updatePool_bind, runs_revertIf_bind, runs_arith_bind,
    runs_request_bind, runs_updates_bind, runs_record, U256.checkedMul_eq_some,
    U256.checkedDiv_eq_some, U256.toNat_ofUInt64] at run
  obtain ⟨pool, accrued, credit, readPool, computed, owner, running, amount, amountEq,
    refund, ⟨window, refundEq⟩, u, answered, storage', written, rfl⟩ := run
  obtain ⟨valid, found⟩ := represents.getPool_eq_ok.mp readPool
  have accrual := accrual_of_updatedPool computed
  have sameTerms := accrual.terms_eq
  have sameEnd := accrual.endTime_eq
  have sameStart : accrued.startTime = pool.startTime :=
    congrArg Terms.startTime sameTerms
  have sameReward : accrued.totalReward = pool.totalReward :=
    congrArg Terms.totalReward sameTerms
  have sameOwner : accrued.owner = pool.owner := congrArg Terms.owner sameTerms
  have sameToken : accrued.stakingToken = pool.stakingToken :=
    congrArg Terms.stakingToken sameTerms
  rw [sameEnd, sameStart] at window
  rw [amountEq, sameEnd, sameStart, sameReward] at refundEq
  rw [sameToken] at answered
  refine ⟨pool, accrued, credit, refund, u, storage', valid, found, accrual, ?_, ?_,
    ⟨window, refundEq⟩, answered, written, rfl⟩
  · rw [← sameOwner]
    exact not_not.mp owner
  · rw [← sameEnd]
    exact UInt64.not_le.mp running

theorem runs_saveMe {tokenHash : ContractHash} {amount : U256}
    (represents : Represents w.storage book)
    (run : Runs respond (saveMe context tokenHash amount) w () w') :
    context.caller = book.admin ∧
      respond (InteractErc20.transfer tokenHash context.caller amount) w w' := by
  simp only [saveMe, runs_reads_bind, runs_revertIf_bind, runs_request,
    represents.admin, not_not] at run
  obtain ⟨admin, ⟨⟩, isAdmin, answered⟩ := run
  exact ⟨isAdmin, answered⟩

theorem runs_setAdmin {account : AccountHash}
    (represents : Represents w.storage book)
    (run : Runs respond (setAdmin context account) w () w') :
    context.caller = book.admin ∧
      w' = { w with storage := { w.storage with admin := account } } := by
  simp only [setAdmin, runs_reads_bind, runs_revertIf_bind, runs_updates,
    represents.admin, not_not] at run
  obtain ⟨admin, ⟨⟩, isAdmin, storage, ⟨⟩, rfl⟩ := run
  exact ⟨isAdmin, rfl⟩

/-- `init` succeeds on a contract that has not been initialised, and leaves an
empty book. -/
theorem runs_init {contHash : ContractPackageHash}
    (run : Runs respond (init contHash) w () w') :
    w.storage.initialized = false ∧
      Represents w'.storage
        { admin := w.storage.admin, index := 0, selfHash := contHash,
          pools := ∅, users := ∅ } ∧
      w'.outside = w.outside ∧ w'.log = w.log := by
  simp only [init, runs_reads_bind, runs_revertIf_bind, runs_updates, bind_eq_ok,
    pure_eq_ok] at run
  obtain ⟨initialized, read, notInitialized, storage, ⟨stakeInfos, newStakeInfos,
    userInfos, newUserInfos, rfl⟩, rfl⟩ := run
  cases read
  have emptyStakeInfos : stakeInfos = ∅ := by
    cases stored : w.storage.stakeInfos with
    | none => simpa [stored, newDictionary, eq_comm] using newStakeInfos
    | some dictionary => simp [stored, newDictionary] at newStakeInfos
  have emptyUserInfos : userInfos = ∅ := by
    cases stored : w.storage.userInfos with
    | none => simpa [stored, newDictionary, eq_comm] using newUserInfos
    | some dictionary => simp [stored, newDictionary] at newUserInfos
  subst emptyStakeInfos emptyUserInfos
  refine ⟨by simpa using notInitialized, ?_, rfl, rfl⟩
  exact {
    admin := rfl
    initialized := rfl
    index := rfl
    selfHash := rfl
    pools := ⟨∅, rfl, FiniteStore.encodes_empty⟩
    users := ⟨∅, rfl, FiniteStore.encodes_empty⟩ }

end Entries

/-! ## Quiet tokens -/

section QuietTokens

variable {E : Type} {tokens : TokenCall → E → E → Prop}
variable {context : Context} {call : Call} {poolId : UInt64}
variable {w w' : StakeWorld E} {book : Book}

/-- The two halves of a settlement join when the tokens keep to themselves. -/
theorem SettlePhases.change (represents : Represents w.storage book)
    (phases : SettlePhases (Quiet tokens) context book poolId call w w') :
    ∃ book' requests events, Change context book call requests events book' ∧
      Represents w'.storage book' ∧ w'.log = w.log ++ events ∧
      Answers tokens requests w.outside w'.outside := by
  cases phases with
  | intro valid found accrual settled debt staked chain written after =>
      obtain ⟨e, answered, rfl⟩ := chain.quiet
      subst after
      exact ⟨_, _, _, .settle valid found accrual settled debt staked,
        represents.updateStorage_eq_ok written, by simp, answered⟩

theorem change_of_runs (represents : Represents w.storage book)
    (run : Runs (Quiet tokens) (call.program context) w () w') :
    ∃ book' requests events, Change context book call requests events book' ∧
      Represents w'.storage book' ∧ w'.log = w.log ++ events ∧
      Answers tokens requests w.outside w'.outside := by
  cases call with
  | init contHash =>
      have fresh := (runs_init run).1
      rw [represents.initialized] at fresh
      cases fresh
  | addPool stakingToken rewardToken startTime endTime precision totalReward =>
      obtain ⟨pool, storage, u, new, sameCall, written, ⟨e, answered, rfl⟩, rfl⟩ :=
        runs_addPool represents run
      rw [sameCall]
      exact ⟨_, _, _, .addPool new, (represents.putPool_eq_ok written).setIndex _, rfl,
        answers_singleton.mpr answered⟩
  | deposit amount poolId =>
      have keepsSelf : ∀ c credit (u : StakeWorld E),
          Quiet tokens c { w with log := w.log ++ creditEvents poolId credit } u →
          u.storage.selfContractHash = w.storage.selfContractHash := by
        intro c credit u quiet
        obtain ⟨e, -, rfl⟩ := quiet
        rfl
      exact (runs_deposit keepsSelf represents run).change represents
  | withdraw amount poolId =>
      exact (runs_withdraw represents run).change represents
  | emergencyWithdraw poolId =>
      obtain ⟨pool, amount, totalStaked, u, storage', valid, found, whole, nonzero,
        staked, ⟨e, answered, rfl⟩, written, rfl⟩ :=
        runs_emergencyWithdraw represents run
      exact ⟨_, _, _, .emergencyWithdraw valid found whole nonzero staked,
        represents.updateStorage_eq_ok written, rfl, answers_singleton.mpr answered⟩
  | stopReward poolId =>
      obtain ⟨pool, accrued, credit, refund, u, storage', valid, found, accrual, owner,
        running, refunds, ⟨e, answered, rfl⟩, written, rfl⟩ :=
        runs_stopReward represents run
      exact ⟨_, _, _, .stopReward valid found accrual owner running refunds,
        represents.putPool_eq_ok written, by simp, answers_singleton.mpr answered⟩
  | saveMe tokenHash amount =>
      obtain ⟨admin, e, answered, rfl⟩ := runs_saveMe represents run
      exact ⟨_, _, _, .saveMe admin, represents, by simp, answers_singleton.mpr answered⟩
  | setAdmin account =>
      obtain ⟨admin, rfl⟩ := runs_setAdmin represents run
      exact ⟨_, _, _, .setAdmin admin, represents.setAdmin account, by simp, .nil _⟩

end QuietTokens

end CasperContracts.Staking
