import CasperContracts.Staking.Trace

/-!
# What the events stand for

The contract records nothing itself: the events of the model are there to speak about runs.
Two facts tie them to what the contract does.  The accumulator of a stored pool is the sum
of the shares recorded for it, and what a call has recorded as reward is what its requests
bring the caller, netted with the stake that the call moves.
-/

namespace CasperContracts.Staking

open CasperContracts.Basis Host Prog

/-! ## Credits -/

def sharesIn : List Event → Nat :=
  sumOver fun event =>
    match event with
    | .credited _ credit => credit.share.toNat
    | _ => 0

section Credits

variable {context : Context} {selfHash : ContractPackageHash} {poolId : UInt64}
  {pool pool' : StakePool} {members members' : Members} {call : Call}
  {log events : List Event}

theorem Accrual.acc_eq_sharesIn {now : UInt64} {credit : Option Credit}
    (accrual : Accrual now pool pool' credit) :
    pool'.accTokenPerShare.toNat =
      pool.accTokenPerShare.toNat + sharesIn (creditEvents poolId credit) := by
  rw [accrual.acc_eq]
  cases credit <;> rfl

theorem Settled.sharesIn_eq {user user' : UserInfo} {requests : List TokenCall}
    (settled : Settled context selfHash poolId pool user user' call requests events) :
    sharesIn events = 0 := by
  cases settled <;> rfl

/-- A call on a pool moves its accumulator by the share it records. -/
theorem PoolChange.acc_eq
    (change : PoolChange context selfHash poolId pool members call events pool' members') :
    pool'.accTokenPerShare.toNat = pool.accTokenPerShare.toNat + sharesIn events := by
  cases change with
  | settle accrual settled debt staked =>
      rw [sharesIn, sumOver_append, ← sharesIn, settled.sharesIn_eq, Nat.add_zero]
      exact accrual.acc_eq_sharesIn
  | emergencyWithdraw whole nonzero staked => rfl
  | stopReward accrual owner running refunds =>
      rw [sharesIn, sumOver_append]
      exact accrual.acc_eq_sharesIn

theorem accumulated_invariant {permitted : Context → Call → Storage → Prop}
    (poolId : UInt64) :
    PoolInvariant permitted poolId fun _ pool _ log =>
      pool.accTokenPerShare.toNat = sharesIn log where
  wait := fun same _ => same
  change := by
    intro now pool members log context call storage selfHash events pool' members' same _ _ _
      change
    rw [change.acc_eq, same, sharesIn, sumOver_append]

variable {E : Type} {around : Surroundings E} {admin : AccountHash} {start : UInt64}
  {outside : E} {moment : Moment E}

/-- In every state of every run the accumulator of a stored pool is the sum of the shares
that updates have recorded for the pool. -/
theorem acc_eq_sharesIn
    (run : Run around unrestricted (installed admin start outside) moment)
    (few : (poolsCreated moment.world.log).length < 2 ^ 64)
    (read : getPool poolId moment.world.storage = .ok pool) :
    pool.accTokenPerShare.toNat = sharesIn (eventsOf poolId moment.world.log) := by
  rcases run.pools (fun _ _ _ pool _ log => pool.accTokenPerShare.toNat = sharesIn log)
      (fun poolId _ => accumulated_invariant poolId)
      (fun _ _ _ new => congrArg U256.toNat new.acc) few with
    ⟨admin', fresh⟩ | ⟨book, represents, below, above⟩
  · rw [fresh] at read
    exact absurd read getPool_installed
  · obtain ⟨-, found⟩ := represents.getPool_eq_ok.mp read
    have lt : poolId < book.index := by
      by_contra notBelow
      rw [(above poolId (UInt64.not_lt.mp notBelow)).1] at found
      cases found
    obtain ⟨first, pool', -, found', same⟩ := below poolId lt
    cases found.symm.trans found'
    exact same

end Credits

/-! ## Rewards -/

def broughtBy (token : ContractHash) (account : AccountHash) (requests : List TokenCall) : ℤ :=
  (requests.map (TokenCall.brings token account)).sum

section Rewards

variable {selfHash : ContractPackageHash} {caller : AccountHash} {pending amount : U256}
  {rewardToken stakingToken token : ContractHash} {requests : List TokenCall}

/-- A deposit brings the reward and takes the amount, however the two are netted. -/
theorem DepositPayment.broughtBy_eq
    (payment : DepositPayment selfHash caller pending amount rewardToken stakingToken requests) :
    broughtBy token caller requests =
      (if rewardToken = token then (pending.toNat : ℤ) else 0) -
        if stakingToken = token then (amount.toNat : ℤ) else 0 := by
  cases payment with
  | pendingZero zero =>
      simp only [broughtBy, List.map_cons, List.map_nil, List.sum_cons, List.sum_nil,
        InteractErc20.transferFrom, TokenCall.brings, and_true, zero, Nat.cast_zero, ite_self]
      split <;> omega
  | equalTokenPendingGreater equal difference =>
      subst equal
      simp only [broughtBy, List.map_cons, List.map_nil, List.sum_cons, List.sum_nil,
        InteractErc20.transfer, TokenCall.brings, and_true]
      split <;> omega
  | equalTokenPendingLesser equal difference =>
      subst equal
      simp only [broughtBy, List.map_cons, List.map_nil, List.sum_cons, List.sum_nil,
        InteractErc20.transferFrom, TokenCall.brings, and_true]
      split <;> omega
  | claimRewardAndDeposit different =>
      simp only [broughtBy, List.map_cons, List.map_nil, List.sum_cons, List.sum_nil,
        InteractErc20.transfer, InteractErc20.transferFrom, TokenCall.brings, and_true]
      split <;> split <;> omega

theorem WithdrawPayment.broughtBy_eq
    (payment : WithdrawPayment caller pending amount rewardToken stakingToken requests) :
    broughtBy token caller requests =
      (if rewardToken = token then (pending.toNat : ℤ) else 0) +
        if stakingToken = token then (amount.toNat : ℤ) else 0 := by
  cases payment with
  | pendingZero zero =>
      simp only [broughtBy, List.map_cons, List.map_nil, List.sum_cons, List.sum_nil,
        InteractErc20.transfer, TokenCall.brings, and_true, zero, Nat.cast_zero, ite_self]
      split <;> omega
  | equalTokens equal sum =>
      subst equal
      simp only [broughtBy, List.map_cons, List.map_nil, List.sum_cons, List.sum_nil,
        InteractErc20.transfer, TokenCall.brings, and_true]
      split <;> omega
  | differentTokens different =>
      simp only [broughtBy, List.map_cons, List.map_nil, List.sum_cons, List.sum_nil,
        InteractErc20.transfer, TokenCall.brings, and_true]
      split <;> split <;> omega

/-- A settlement brings what it records as reward and moves the stake. -/
theorem Settled.broughtBy_eq {context : Context} {poolId : UInt64} {accrued : StakePool}
    {user user' : UserInfo} {call : Call} {events : List Event}
    (settled : Settled context selfHash poolId accrued user user' call requests events) :
    broughtBy token context.caller requests =
      (if accrued.rewardToken = token then (paidIn events : ℤ) else 0) -
        if accrued.stakingToken = token then call.moves else 0 := by
  cases settled with
  | @first amount nonzero opened fresh total =>
      have nothing : paidIn [.deposited poolId context.caller amount] = 0 := rfl
      have payment : DepositPayment selfHash context.caller U256.zero amount
          accrued.rewardToken accrued.stakingToken
          [InteractErc20.transferFrom accrued.stakingToken context.caller selfHash amount] :=
        .pendingZero U256.toNat_zero
      rw [payment.broughtBy_eq, nothing, U256.toNat_zero]
      rfl
  | @topUp amount pending requests nonzero opened staking total pays payment =>
      have paid : paidIn [.rewardPaid poolId context.caller pending,
          .deposited poolId context.caller amount] = pending.toNat := rfl
      rw [payment.broughtBy_eq, paid]
      rfl
  | @withdraw amount pending requests nonzero total pays payment =>
      have paid : paidIn [.rewardPaid poolId context.caller pending,
          .withdrawn poolId context.caller amount user'.amount] = pending.toNat := rfl
      rw [payment.broughtBy_eq, paid]
      simp only [Call.moves]
      split <;> split <;> omega

variable {E : Type} {around : Surroundings E} {permitted : Context → Call → Storage → Prop}
  {admin : AccountHash} {start poolId : UInt64} {outside : E} {moment : Moment E}
  {context : Context} {call : Call} {pool : StakePool} {w' : StakeWorld E}

/-- In every state of every run, what a deposit or a withdrawal records as reward is what
its requests bring the caller in the reward token, less what it adds to the stake. -/
theorem rewards_requested
    (run : Run around permitted (installed admin start outside) moment)
    (read : getPool poolId moment.world.storage = .ok pool)
    (settles : call = .deposit amount poolId ∨ call = .withdraw amount poolId)
    (success : Runs (Quiet around.answer) (call.program context) moment.world () w') :
    ∃ requests, Answers around.answer requests moment.world.outside w'.outside ∧
      ∀ token, broughtBy token context.caller requests =
        (if pool.rewardToken = token then
          (paidIn (w'.log.drop moment.world.log.length) : ℤ) else 0) -
        if pool.stakingToken = token then call.moves else 0 := by
  rcases run.represents with ⟨admin', fresh⟩ | ⟨book, represents⟩
  · rw [fresh] at read
    exact absurd read getPool_installed
  · obtain ⟨-, found⟩ := represents.getPool_eq_ok.mp read
    obtain ⟨book', requests, events, change, -, log, answered⟩ :=
      change_of_runs represents success
    refine ⟨requests, answered, fun token => ?_⟩
    rw [log, List.drop_left]
    cases change with
    | @settle _ otherId pool' accrued credit user' totalStaked _ settledEvents valid found'
        accrual settled debt staked =>
        have samePool : otherId = poolId := by
          rcases settles with rfl | rfl <;> cases settled <;> rfl
        subst samePool
        cases found.symm.trans found'
        have terms := accrual.terms_eq
        have reward : accrued.rewardToken = pool.rewardToken := congrArg Terms.rewardToken terms
        have staking : accrued.stakingToken = pool.stakingToken :=
          congrArg Terms.stakingToken terms
        rw [settled.broughtBy_eq, reward, staking, paidIn_append, paidIn_creditEvents,
          Nat.zero_add]
    | addPool => simp at settles
    | emergencyWithdraw => simp at settles
    | stopReward => simp at settles
    | saveMe => simp at settles
    | setAdmin => simp at settles

end Rewards

end CasperContracts.Staking
