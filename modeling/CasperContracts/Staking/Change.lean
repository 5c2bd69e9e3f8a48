import CasperContracts.Staking.Accrual
import CasperContracts.Staking.Book

/-!
# What one call does to the book

`Change` lists everything a successful call can do: which records it writes,
which token requests it issues and which events it records.  It is derived
once from the programs; later proofs split on it and never unfold an entry
point.
-/

namespace CasperContracts.Staking

open CasperContracts.Basis Host

abbrev StakeWorld (E : Type) := World Storage E Event

def creditEvents (poolId : UInt64) : Option Credit → List Event
  | some credit => [.credited poolId credit]
  | none => []

/-! ## Payments -/

section Payments

variable (selfHash : ContractPackageHash) (caller : AccountHash)
  (pending amount : U256) (rewardToken stakingToken : ContractHash)

/-- The requests of a deposit that claims `pending`. -/
inductive DepositPayment : List TokenCall → Prop where
  | pendingZero (zero : pending.toNat = 0) :
      DepositPayment [InteractErc20.transferFrom stakingToken caller selfHash amount]
  | equalTokenPendingGreater {net : U256} (equal : rewardToken = stakingToken)
      (difference : pending.toNat = net.toNat + amount.toNat) :
      DepositPayment [InteractErc20.transfer stakingToken caller net]
  | equalTokenPendingLesser {net : U256} (equal : rewardToken = stakingToken)
      (difference : amount.toNat = net.toNat + pending.toNat) :
      DepositPayment [InteractErc20.transferFrom stakingToken caller selfHash net]
  | claimRewardAndDeposit (different : rewardToken ≠ stakingToken) :
      DepositPayment [InteractErc20.transfer rewardToken caller pending,
        InteractErc20.transferFrom stakingToken caller selfHash amount]

inductive WithdrawPayment : List TokenCall → Prop where
  | pendingZero (zero : pending.toNat = 0) :
      WithdrawPayment [InteractErc20.transfer stakingToken caller amount]
  | equalTokens {total : U256} (equal : rewardToken = stakingToken)
      (sum : total.toNat = pending.toNat + amount.toNat) :
      WithdrawPayment [InteractErc20.transfer stakingToken caller total]
  | differentTokens (different : rewardToken ≠ stakingToken) :
      WithdrawPayment [InteractErc20.transfer rewardToken caller pending,
        InteractErc20.transfer stakingToken caller amount]

end Payments

/-- How a deposit or a withdrawal moves the caller's record from `user` to
`user'` on a pool that has been brought up to date. -/
inductive Settled (context : Context) (selfHash : ContractPackageHash)
    (poolId : UInt64) (accrued : StakePool) (user user' : UserInfo) :
    Call → List TokenCall → List Event → Prop where
  | first {amount : U256} (nonzero : 0 < amount.toNat)
      (opened : context.blocktime ≤ accrued.endTime)
      (fresh : user.amount.toNat = 0)
      (total : user'.amount.toNat = amount.toNat + user.amount.toNat) :
      Settled context selfHash poolId accrued user user' (.deposit amount poolId)
        [InteractErc20.transferFrom accrued.stakingToken context.caller selfHash amount]
        [.deposited poolId context.caller amount]
  | topUp {amount pending : U256} {requests : List TokenCall}
      (nonzero : 0 < amount.toNat)
      (opened : context.blocktime ≤ accrued.endTime)
      (staking : 0 < user.amount.toNat)
      (total : user'.amount.toNat = amount.toNat + user.amount.toNat)
      (pays : accrued.earned user.amount = pending.toNat + user.rewardDebt.toNat)
      (payment : DepositPayment selfHash context.caller pending amount
        accrued.rewardToken accrued.stakingToken requests) :
      Settled context selfHash poolId accrued user user' (.deposit amount poolId)
        requests
        [.rewardPaid poolId context.caller pending,
          .deposited poolId context.caller amount]
  | withdraw {amount pending : U256} {requests : List TokenCall}
      (nonzero : 0 < amount.toNat)
      (total : user.amount.toNat = user'.amount.toNat + amount.toNat)
      (pays : accrued.earned user.amount = pending.toNat + user.rewardDebt.toNat)
      (payment : WithdrawPayment context.caller pending amount
        accrued.rewardToken accrued.stakingToken requests) :
      Settled context selfHash poolId accrued user user' (.withdraw amount poolId)
        requests
        [.rewardPaid poolId context.caller pending,
          .withdrawn poolId context.caller amount user'.amount]

/-- The refund of `stop_reward` at `now`, with the wrapping differences of the
release build. -/
def RefundOf (now : UInt64) (pool : StakePool) (refund : U256) : Prop :=
  0 < (pool.endTime - pool.startTime).toNat ∧
    refund.toNat =
      (pool.endTime - getMax now pool.startTime).toNat * pool.totalReward.toNat /
        (pool.endTime - pool.startTime).toNat

structure NewPool (context : Context) (index : UInt64) (pool : StakePool) : Prop where
  id : pool.id = index
  start : context.blocktime ≤ pool.startTime
  stop : context.blocktime ≤ pool.endTime
  reward : 0 < pool.totalReward.toNat
  precision : 18 ≤ pool.precision ∧ pool.precision ≤ 36
  owner : pool.owner = context.caller
  last : pool.lastRewardTimestamp = 0
  acc : pool.accTokenPerShare = U256.zero
  staked : pool.totalStaked = U256.zero

/-- What a successful call does to the book of an initialised contract. -/
inductive Change (context : Context) (book : Book) :
    Call → List TokenCall → List Event → Book → Prop where
  | addPool {pool : StakePool} (new : NewPool context book.index pool) :
      Change context book
        (.addPool pool.stakingToken pool.rewardToken pool.startTime pool.endTime
          pool.precision pool.totalReward)
        [InteractErc20.transferFrom pool.rewardToken context.caller book.selfHash
          pool.totalReward]
        [.poolAdded pool]
        { book.putPool book.index pool with index := book.index + 1 }
  | settle {call : Call} {poolId : UInt64} {pool accrued : StakePool}
      {credit : Option Credit} {user' : UserInfo} {totalStaked : U256}
      {requests : List TokenCall} {events : List Event}
      (valid : poolId ≤ book.index)
      (found : book.pool poolId = some pool)
      (accrual : Accrual context.blocktime pool accrued credit)
      (settled : Settled context book.selfHash poolId accrued
        (book.user (recordKey context.caller poolId)) user' call requests events)
      (debt : user'.rewardDebt.toNat = accrued.earned user'.amount)
      (staked : totalStaked.toNat +
          (book.user (recordKey context.caller poolId)).amount.toNat =
        accrued.totalStaked.toNat + user'.amount.toNat) :
      Change context book call requests (creditEvents poolId credit ++ events)
        ((book.putPool poolId { accrued with totalStaked }).putUser
          (recordKey context.caller poolId) user')
  | emergencyWithdraw {poolId : UInt64} {pool : StakePool} {amount totalStaked : U256}
      (valid : poolId ≤ book.index)
      (found : book.pool poolId = some pool)
      (whole : amount = (book.user (recordKey context.caller poolId)).amount)
      (nonzero : 0 < amount.toNat)
      (staked : pool.totalStaked.toNat = totalStaked.toNat + amount.toNat) :
      Change context book (.emergencyWithdraw poolId)
        [InteractErc20.transfer pool.stakingToken context.caller amount]
        [.emergencyWithdrawn poolId context.caller amount]
        ((book.putPool poolId { pool with totalStaked }).putUser
          (recordKey context.caller poolId)
          { amount := U256.zero, rewardDebt := U256.zero })
  | stopReward {poolId : UInt64} {pool accrued : StakePool} {credit : Option Credit}
      {refund : U256}
      (valid : poolId ≤ book.index)
      (found : book.pool poolId = some pool)
      (accrual : Accrual context.blocktime pool accrued credit)
      (owner : pool.owner = context.caller)
      (running : context.blocktime < pool.endTime)
      (refunds : RefundOf context.blocktime pool refund) :
      Change context book (.stopReward poolId)
        [InteractErc20.transfer pool.stakingToken context.caller refund]
        (creditEvents poolId credit ++ [.stopped poolId context.blocktime refund])
        (book.putPool poolId { accrued with endTime := context.blocktime })
  | saveMe {tokenHash : ContractHash} {amount : U256}
      (admin : context.caller = book.admin) :
      Change context book (.saveMe tokenHash amount)
        [InteractErc20.transfer tokenHash context.caller amount] [] book
  | setAdmin {account : AccountHash} (admin : context.caller = book.admin) :
      Change context book (.setAdmin account) [] []
        { book with admin := account }

theorem Change.settlement {context : Context} {book book' : Book} {call : Call}
    {requests : List TokenCall} {events : List Event} {amount : U256} {poolId : UInt64}
    (settles : call = .deposit amount poolId ∨ call = .withdraw amount poolId)
    (change : Change context book call requests events book') :
    ∃ pool accrued credit user' totalStaked, book.pool poolId = some pool ∧
      Accrual context.blocktime pool accrued credit ∧
      user'.rewardDebt.toNat = accrued.earned user'.amount ∧
      book' = (book.putPool poolId { accrued with totalStaked }).putUser
        (recordKey context.caller poolId) user' := by
  cases change with
  | @settle _ otherId pool accrued credit user' totalStaked _ _ valid found accrual settled
      debt staked =>
      have samePool : otherId = poolId := by
        rcases settles with rfl | rfl <;> cases settled <;> rfl
      subst samePool
      exact ⟨pool, accrued, credit, user', totalStaked, found, accrual, debt, rfl⟩
  | addPool => simp at settles
  | emergencyWithdraw => simp at settles
  | stopReward => simp at settles
  | saveMe => simp at settles
  | setAdmin => simp at settles

end CasperContracts.Staking
