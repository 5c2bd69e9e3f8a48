import CasperContracts.Staking.Payments

/-!
# The token ledger

What the contract holds of a token is what its pools owe in it: the stakes of
the pools staked in the token, and the unpaid rewards of the pools rewarded in
it.  Every payment keeps this but the refund of `stop_reward`, which is sent in
the staking token.
-/

namespace CasperContracts.Staking

open CasperContracts.Basis Host Prog

def refundsIn : List Event → Nat :=
  sumOver fun event =>
    match event with
    | .stopped _ _ refund => refund.toNat
    | _ => 0

@[simp] theorem refundsIn_append (log more : List Event) :
    refundsIn (log ++ more) = refundsIn log + refundsIn more :=
  sumOver_append _ _ _

@[simp] theorem refundsIn_creditEvents (poolId : UInt64) (credit : Option Credit) :
    refundsIn (creditEvents poolId credit) = 0 := by
  cases credit <;> rfl

/-! ## Payments -/

section Payments

variable {E : Type} {package : ContractPackageHash} {answer : TokenCall → E → E → Prop}
  {balances : E → Balances} {e e' : E} {caller : AccountHash} {token : ContractHash}

/-- What an amount of `paid` is worth in `token`. -/
def inToken (token paid : ContractHash) (amount : ℤ) : ℤ :=
  if token = paid then amount else 0

section InToken

variable {paid : ContractHash} {amount amount' : ℤ}

@[simp] theorem inToken_zero : inToken token paid 0 = 0 :=
  ite_self 0

theorem inToken_add :
    inToken token paid (amount + amount') =
      inToken token paid amount + inToken token paid amount' := by
  by_cases same : token = paid <;> simp [inToken, same]

theorem inToken_sub :
    inToken token paid (amount - amount') =
      inToken token paid amount - inToken token paid amount' := by
  by_cases same : token = paid <;> simp [inToken, same]

end InToken

theorem balance_of_transfer (standard : StandardErc20 package answer balances)
    {paid : ContractHash} {amount : U256}
    (answered : answer (InteractErc20.transfer paid caller amount) e e') :
    (balances e' token (.contract package) : ℤ) =
      balances e token (.contract package) - inToken token paid amount.toNat := by
  have moves := standard.transfer answered token (.contract package)
  simp only [reduceCtorEq, and_false, if_false, and_true] at moves
  unfold inToken
  omega

theorem balance_of_transferFrom (standard : StandardErc20 package answer balances)
    {paid : ContractHash} {amount : U256}
    (answered : answer (InteractErc20.transferFrom paid caller package amount) e e') :
    (balances e' token (.contract package) : ℤ) =
      balances e token (.contract package) + inToken token paid amount.toNat := by
  have moves := standard.transferFrom answered token (.contract package)
  simp only [reduceCtorEq, and_false, if_false, and_true] at moves
  unfold inToken
  omega

variable {pending amount : U256} {rewardToken stakingToken : ContractHash}
  {requests : List TokenCall}

/-- A deposit brings in the amount and sends out the reward, netted or not. -/
theorem DepositPayment.balance (standard : StandardErc20 package answer balances)
    (payment : DepositPayment package caller pending amount rewardToken stakingToken
      requests)
    (answered : Answers answer requests e e') :
    (balances e' token (.contract package) : ℤ) =
      balances e token (.contract package) + inToken token stakingToken amount.toNat -
        inToken token rewardToken pending.toNat := by
  cases payment with
  | pendingZero zero =>
      obtain - | ⟨head, ⟨⟩⟩ := answered
      rw [balance_of_transferFrom standard head]
      simp [inToken, zero]
  | equalTokenPendingGreater equal difference =>
      obtain - | ⟨head, ⟨⟩⟩ := answered
      rw [balance_of_transfer standard head, equal, difference, Nat.cast_add, inToken_add]
      omega
  | equalTokenPendingLesser equal difference =>
      obtain - | ⟨head, ⟨⟩⟩ := answered
      rw [balance_of_transferFrom standard head, equal, difference, Nat.cast_add,
        inToken_add]
      omega
  | claimRewardAndDeposit different =>
      obtain - | ⟨claimed, - | ⟨deposited, ⟨⟩⟩⟩ := answered
      rw [balance_of_transferFrom standard deposited, balance_of_transfer standard claimed]
      omega

theorem WithdrawPayment.balance (standard : StandardErc20 package answer balances)
    (payment : WithdrawPayment caller pending amount rewardToken stakingToken requests)
    (answered : Answers answer requests e e') :
    (balances e' token (.contract package) : ℤ) =
      balances e token (.contract package) - inToken token stakingToken amount.toNat -
        inToken token rewardToken pending.toNat := by
  cases payment with
  | pendingZero zero =>
      obtain - | ⟨head, ⟨⟩⟩ := answered
      rw [balance_of_transfer standard head]
      simp [inToken, zero]
  | equalTokens equal sum =>
      obtain - | ⟨head, ⟨⟩⟩ := answered
      rw [balance_of_transfer standard head, equal, sum, Nat.cast_add, inToken_add]
      omega
  | differentTokens different =>
      obtain - | ⟨claimed, - | ⟨returned, ⟨⟩⟩⟩ := answered
      rw [balance_of_transfer standard returned, balance_of_transfer standard claimed]
      omega

theorem Settled.balance {context : Context} {poolId : UInt64} {accrued : StakePool}
    {user user' : UserInfo} {call : Call} {events : List Event} {totalStaked : U256}
    (standard : StandardErc20 package answer balances)
    (settled : Settled context package poolId accrued user user' call requests events)
    (staked : totalStaked.toNat + user.amount.toNat =
      accrued.totalStaked.toNat + user'.amount.toNat)
    (answered : Answers answer requests e e') :
    (balances e' token (.contract package) : ℤ) =
      balances e token (.contract package) +
        inToken token accrued.stakingToken
          ((totalStaked.toNat : ℤ) - accrued.totalStaked.toNat) -
        inToken token accrued.rewardToken (paidIn events) := by
  cases settled with
  | @first amount nonzero opened fresh total =>
      obtain - | ⟨head, ⟨⟩⟩ := answered
      have nothing : paidIn [.deposited poolId context.caller amount] = 0 := rfl
      have stake : (totalStaked.toNat : ℤ) - accrued.totalStaked.toNat = amount.toNat := by
        omega
      rw [balance_of_transferFrom standard head, nothing, stake, Nat.cast_zero,
        inToken_zero, sub_zero]
  | @topUp amount pending _ nonzero opened staking total pays payment =>
      have paid : paidIn [.rewardPaid poolId context.caller pending,
          .deposited poolId context.caller amount] = pending.toNat := rfl
      have stake : (totalStaked.toNat : ℤ) - accrued.totalStaked.toNat = amount.toNat := by
        omega
      rw [payment.balance standard answered, paid, stake]
  | @withdraw amount pending _ nonzero total pays payment =>
      have paid : paidIn [.rewardPaid poolId context.caller pending,
          .withdrawn poolId context.caller amount user'.amount] = pending.toNat := rfl
      have stake : (totalStaked.toNat : ℤ) - accrued.totalStaked.toNat =
          0 - amount.toNat := by
        omega
      rw [payment.balance standard answered, paid, stake, inToken_sub, inToken_zero]
      omega

end Payments

/-! ## What the pools owe -/

/-- What the contract holds of a token for a pool. -/
def StakePool.held (token : ContractHash) (log : List Event) (pool : StakePool) : ℤ :=
  inToken token pool.stakingToken pool.totalStaked.toNat +
    inToken token pool.rewardToken
      ((pool.totalReward.toNat : ℤ) - paidIn (eventsOf pool.id log) -
        refundsIn (eventsOf pool.id log))

def heldIn (token : ContractHash) (log : List Event) (pools : Dictionary) : ℤ :=
  FiniteStore.total
    (fun _ bytes => (StakePool.unpack bytes).elim 0 fun pool => pool.held token log) pools

/-- A stop is on a pool with one token or without a refund, a new pool has a free
id, and the admin takes nothing out. -/
def staysBacked (context : Context) : Call → Storage → Prop
  | .addPool .., storage => Vacant storage
  | .stopReward poolId, storage =>
      OnStored poolId storage fun pool => pool.stakingToken = pool.rewardToken ∨
        (pool.endTime - getMax context.blocktime pool.startTime).toNat *
            pool.totalReward.toNat < (pool.endTime - pool.startTime).toNat
  | .saveMe .., _ => False
  | _, _ => True

instance (context : Context) :
    (call : Call) → (storage : Storage) → Decidable (staysBacked context call storage)
  | .addPool .., storage => inferInstanceAs (Decidable (Vacant storage))
  | .stopReward poolId, storage =>
      inferInstanceAs (Decidable (OnStored poolId storage fun pool =>
        pool.stakingToken = pool.rewardToken ∨
          (pool.endTime - getMax context.blocktime pool.startTime).toNat *
              pool.totalReward.toNat < (pool.endTime - pool.startTime).toNat))
  | .saveMe .., _ => .isFalse id
  | .init _, _ | .deposit .., _ | .withdraw .., _ | .emergencyWithdraw _, _
  | .setAdmin _, _ => .isTrue trivial

section Ledger

variable {E : Type} {package : ContractPackageHash} {balances : E → Balances}
  {book book' : Book} {e e' : E} {log events : List Event} {poolId : UInt64}
  {pool pool' : StakePool}

structure Backed (package : ContractPackageHash) (balances : E → Balances) (book : Book)
    (e : E) (log : List Event) : Prop where
  selfHash : book.selfHash = package
  ids : ∀ poolId pool, book.pool poolId = some pool → pool.id = poolId
  unborn : ∀ poolId, book.pool poolId = none → eventsOf poolId log = []
  balance : ∀ token, (balances e token (.contract package) : ℤ) =
    FiniteStore.total (fun _ pool => StakePool.held token log pool) book.pools

/-- What a pool's own events change of what is held for it. -/
theorem held_append (token : ContractHash) (terms : pool'.terms = pool.terms)
    (own : eventsOf pool.id events = events) :
    pool'.held token (log ++ events) =
      pool.held token log +
        inToken token pool.stakingToken
          ((pool'.totalStaked.toNat : ℤ) - pool.totalStaked.toNat) -
        inToken token pool.rewardToken (paidIn events + refundsIn events) := by
  have id : pool'.id = pool.id := congrArg Terms.id terms
  have stakingToken : pool'.stakingToken = pool.stakingToken :=
    congrArg Terms.stakingToken terms
  have rewardToken : pool'.rewardToken = pool.rewardToken :=
    congrArg Terms.rewardToken terms
  have totalReward : pool'.totalReward = pool.totalReward :=
    congrArg Terms.totalReward terms
  rw [StakePool.held, StakePool.held, id, stakingToken, rewardToken, totalReward,
    eventsOf_append, own, paidIn_append, refundsIn_append]
  simp only [Nat.cast_add, inToken_sub, inToken_add]
  omega

/-- One pool record is written and the balances move by the change of what is held
for it. -/
theorem Backed.put (backed : Backed package balances book e log)
    (about : ∀ other, other ≠ poolId → eventsOf other events = [])
    (sameSelf : book'.selfHash = book.selfHash)
    (written : book'.pools = Finmap.insert poolId pool' book.pools)
    (id : pool'.id = poolId)
    (moved : ∀ token, (balances e' token (.contract package) : ℤ) +
        (book.pool poolId).elim 0 (StakePool.held token log) =
      balances e token (.contract package) + pool'.held token (log ++ events)) :
    Backed package balances book' e' (log ++ events) := by
  have pools : ∀ other, book'.pool other =
      if other = poolId then some pool' else book.pool other := by
    intro other
    rw [Book.pool, written]
    exact book.putPool_pool poolId other pool'
  refine ⟨sameSelf.trans backed.selfHash, ?_, ?_, ?_⟩
  · intro other record found
    rw [pools] at found
    split at found
    · rename_i same
      rw [Option.some.injEq] at found
      rw [← found, id, same]
    · exact backed.ids other record found
  · intro other absent
    rw [pools] at absent
    split at absent
    · cases absent
    · rename_i different
      rw [eventsOf_append, backed.unborn other absent, about other different]
      rfl
  · intro token
    have others : ∀ other, other ≠ poolId → ∀ record,
        book.pools.lookup other = some record →
        StakePool.held token (log ++ events) record = StakePool.held token log record := by
      intro other different record found
      have recordId := backed.ids other record found
      simp only [StakePool.held, recordId, eventsOf_append, about other different,
        List.append_nil]
    have exchange := FiniteStore.total_insert_of_congr
      (fun _ record => StakePool.held token log record)
      (fun _ record => StakePool.held token (log ++ events) record)
      book.pools poolId pool' others
    have before := backed.balance token
    have move := moved token
    rw [written]
    change _ + (book.pool poolId).elim 0 (StakePool.held token log) = _ at exchange
    omega

theorem Backed.write (pool' : StakePool) (backed : Backed package balances book e log)
    (found : book.pool poolId = some pool) (terms : pool'.terms = pool.terms)
    (concern : Concern poolId events)
    (sameSelf : book'.selfHash = book.selfHash)
    (written : book'.pools = Finmap.insert poolId pool' book.pools)
    (moved : ∀ token, (balances e' token (.contract package) : ℤ) =
      balances e token (.contract package) +
        inToken token pool.stakingToken
          ((pool'.totalStaked.toNat : ℤ) - pool.totalStaked.toNat) -
        inToken token pool.rewardToken (paidIn events + refundsIn events)) :
    Backed package balances book' e' (log ++ events) := by
  have id := backed.ids poolId pool found
  have own : eventsOf pool.id events = events := by
    rw [concern.eventsOf_eq, if_pos id.symm]
  refine backed.put (fun other different => ?_) sameSelf written
    ((congrArg Terms.id terms).trans id) (fun token => ?_)
  · rw [concern.eventsOf_eq, if_neg different.symm]
  · rw [held_append token terms own, moved, found, Option.elim_some]
    omega

theorem Backed.wait (backed : Backed package balances book e log)
    (calm : ∀ token, balances e' token (.contract package) =
      balances e token (.contract package)) :
    Backed package balances book e' log where
  selfHash := backed.selfHash
  ids := backed.ids
  unborn := backed.unborn
  balance := fun token => by rw [calm, backed.balance]

section Changes

variable {context : Context} {answer : TokenCall → E → E → Prop}

private theorem Backed.addPool {created : StakePool}
    (standard : StandardErc20 package answer balances)
    (free : book.pool book.index = none) (new : NewPool context book.index created)
    (answered : answer (InteractErc20.transferFrom created.rewardToken context.caller
      package created.totalReward) e e')
    (backed : Backed package balances book e log) :
    Backed package balances
      { book.putPool book.index created with index := book.index + 1 } e'
      (log ++ [.poolAdded created]) := by
  refine backed.put (fun other different => ?_) rfl rfl new.id (fun token => ?_)
  · simp [eventsOf, Event.poolId, new.id, different.symm]
  · have fresh := backed.unborn book.index free
    have noPayments : paidIn (eventsOf created.id (log ++ [.poolAdded created])) = 0 ∧
        refundsIn (eventsOf created.id (log ++ [.poolAdded created])) = 0 := by
      rw [new.id, eventsOf_append, fresh]
      simp [eventsOf, Event.poolId, new.id, paidIn, refundsIn, sumOver]
    rw [balance_of_transferFrom standard answered, free]
    simp only [StakePool.held, noPayments.1, noPayments.2, new.staked,
      U256.toNat_zero, Option.elim_none]
    simp

private theorem Backed.settle {call : Call} {accrued : StakePool}
    {credit : Option Credit} {user user' : UserInfo} {totalStaked : U256}
    {requests : List TokenCall} {key : RecordKey}
    (standard : StandardErc20 package answer balances)
    (found : book.pool poolId = some pool)
    (accrual : Accrual context.blocktime pool accrued credit)
    (settled : Settled context package poolId accrued user user' call requests events)
    (staked : totalStaked.toNat + user.amount.toNat =
      accrued.totalStaked.toNat + user'.amount.toNat)
    (answered : Answers answer requests e e')
    (backed : Backed package balances book e log) :
    Backed package balances
      ((book.putPool poolId { accrued with totalStaked }).putUser key user') e'
      (log ++ (creditEvents poolId credit ++ events)) := by
  have concern := (concern_creditEvents credit).append settled.concern
  refine backed.write { accrued with totalStaked } found accrual.terms_eq concern rfl rfl
    fun token => ?_
  have stakingToken : accrued.stakingToken = pool.stakingToken :=
    congrArg Terms.stakingToken accrual.terms_eq
  have rewardToken : accrued.rewardToken = pool.rewardToken :=
    congrArg Terms.rewardToken accrual.terms_eq
  have noRefund : refundsIn events = 0 := by
    cases settled <;> rfl
  rw [settled.balance standard staked answered, stakingToken, rewardToken,
    accrual.totalStaked_eq, paidIn_append, refundsIn_append, paidIn_creditEvents,
    refundsIn_creditEvents, noRefund]
  simp

private theorem Backed.emergencyWithdraw {amount totalStaked : U256} {key : RecordKey}
    {user' : UserInfo} (standard : StandardErc20 package answer balances)
    (found : book.pool poolId = some pool)
    (staked : pool.totalStaked.toNat = totalStaked.toNat + amount.toNat)
    (answered : answer (InteractErc20.transfer pool.stakingToken context.caller amount)
      e e')
    (backed : Backed package balances book e log) :
    Backed package balances
      ((book.putPool poolId { pool with totalStaked }).putUser key user') e'
      (log ++ [.emergencyWithdrawn poolId context.caller amount]) := by
  have concern : Concern poolId [.emergencyWithdrawn poolId context.caller amount] := by
    simp [Concern, Event.poolId]
  refine backed.write { pool with totalStaked } found rfl concern rfl rfl fun token => ?_
  have stake : (totalStaked.toNat : ℤ) - pool.totalStaked.toNat = 0 - amount.toNat := by
    omega
  change _ = _ + inToken token pool.stakingToken
    ((totalStaked.toNat : ℤ) - pool.totalStaked.toNat) - inToken token _ 0
  rw [balance_of_transfer standard answered, stake, inToken_sub]
  simp only [inToken_zero]
  omega

/-- A refund in the kind of the reward, or of nothing, keeps the contract backed. -/
private theorem Backed.stopReward {accrued : StakePool} {credit : Option Credit}
    {refund : U256} {now : UInt64} (standard : StandardErc20 package answer balances)
    (found : book.pool poolId = some pool) (accrual : Accrual now pool accrued credit)
    (inKind : pool.stakingToken = pool.rewardToken ∨ refund.toNat = 0)
    (answered : answer (InteractErc20.transfer pool.stakingToken context.caller refund)
      e e')
    (backed : Backed package balances book e log) :
    Backed package balances (book.putPool poolId { accrued with endTime := now }) e'
      (log ++ (creditEvents poolId credit ++ [.stopped poolId now refund])) := by
  have stops : Concern poolId [.stopped poolId now refund] := by
    simp [Concern, Event.poolId]
  refine backed.write { accrued with endTime := now } found accrual.terms_eq
    ((concern_creditEvents credit).append stops) rfl rfl fun token => ?_
  have sameKind : inToken token pool.stakingToken refund.toNat =
      inToken token pool.rewardToken refund.toNat := by
    rcases inKind with same | nothing
    · rw [same]
    · simp [nothing]
  have sent : paidIn [.stopped poolId now refund] = 0 ∧
      refundsIn [.stopped poolId now refund] = refund.toNat := ⟨rfl, rfl⟩
  rw [balance_of_transfer standard answered, sameKind, accrual.totalStaked_eq,
    paidIn_append, refundsIn_append, paidIn_creditEvents, refundsIn_creditEvents, sent.1,
    sent.2]
  simp

theorem Change.backed {call : Call} {requests : List TokenCall} {storage : Storage}
    (standard : StandardErc20 package answer balances)
    (represents : Represents storage book) (allowed : staysBacked context call storage)
    (change : Change context book call requests events book')
    (answered : Answers answer requests e e')
    (backed : Backed package balances book e log) :
    Backed package balances book' e' (log ++ events) := by
  have sameSelf := backed.selfHash
  cases change with
  | addPool new =>
      rw [sameSelf] at answered
      obtain - | ⟨head, ⟨⟩⟩ := answered
      exact backed.addPool standard (Vacant.absent allowed represents) new head
  | settle valid found accrual settled debt staked =>
      rw [sameSelf] at settled
      exact backed.settle standard found accrual settled staked answered
  | emergencyWithdraw valid found whole nonzero staked =>
      obtain - | ⟨head, ⟨⟩⟩ := answered
      exact backed.emergencyWithdraw standard found staked head
  | stopReward valid found accrual owner running refunds =>
      obtain - | ⟨head, ⟨⟩⟩ := answered
      have read := represents.getPool_eq_ok.mpr ⟨valid, found⟩
      refine backed.stopReward standard found accrual ?_ head
      rcases allowed.of_getPool read with same | small
      · exact .inl same
      · right
        rw [refunds.2]
        exact Nat.div_eq_of_lt small
  | saveMe => exact allowed.elim
  | setAdmin =>
      obtain ⟨⟩ := answered
      rw [List.append_nil]
      exact ⟨backed.selfHash, backed.ids, backed.unborn, backed.balance⟩

end Changes

end Ledger

def withoutSaveMe (_ : Context) : Call → Storage → Prop
  | .saveMe .., _ => False
  | _, _ => True

instance (context : Context) :
    (call : Call) → (storage : Storage) → Decidable (withoutSaveMe context call storage)
  | .saveMe .., _ => .isFalse id
  | .init _, _ | .addPool .., _ | .deposit .., _ | .withdraw .., _
  | .emergencyWithdraw _, _ | .stopReward _, _ | .setAdmin _, _ => .isTrue trivial

section Runs

variable {E : Type} {around : Surroundings E} {package : ContractPackageHash}
  {balances : E → Balances}

theorem Represents.heldIn_eq {storage : Storage} {book : Book} {pools : Dictionary}
    (represents : Represents storage book) (stored : storage.stakeInfos = some pools)
    (token : ContractHash) (log : List Event) :
    heldIn token log pools =
      FiniteStore.total (fun _ pool => StakePool.held token log pool) book.pools := by
  obtain ⟨dictionary, known, encodes⟩ := represents.pools
  rw [stored, Option.some.injEq] at known
  subst known
  rw [heldIn, encodes.total (numberedKey_injective _)]
  apply FiniteStore.total_congr
  intro poolId pool _
  simp [StakePool.unpack_pack]

/-- From an initialised contract that holds no tokens, among standard tokens, the
balance of the contract in every token is what its pools owe in it, in every
state of every run that keeps to `staysBacked`. -/
theorem balance_eq_heldIn (standard : StandardErc20 package around.answer balances)
    (calm : ∀ e e', around.drift e e' → ∀ token,
      balances e' token (.contract package) = balances e token (.contract package))
    {admin : AccountHash} {start : UInt64} {outside : E} {moment : Moment E}
    (nothing : ∀ token, balances outside token (.contract package) = 0)
    (run : Run around staysBacked
      { now := start,
        world := { storage := .initialised admin package, outside, log := [] } } moment)
    {pools : Dictionary} (stored : moment.world.storage.stakeInfos = some pools)
    (token : ContractHash) :
    (balances moment.world.outside token (.contract package) : ℤ) =
      heldIn token moment.world.log pools := by
  have invariant : Invariant around staysBacked fun _ book e log =>
      Backed package balances book e log := {
    wait := fun backed _ => backed
    drift := fun backed drifts => backed.wait (calm _ _ drifts)
    change := fun backed _ represents allowed change answered =>
      change.backed standard represents allowed answered backed }
  have initially : Backed package balances (.empty admin package) outside [] := {
    selfHash := rfl
    ids := fun _ _ found => by cases found
    unborn := fun _ _ => rfl
    balance := fun token => by
      rw [nothing]
      rfl }
  obtain ⟨book, represents, backed⟩ :=
    run.represented invariant (represents_initialised admin package) initially
  rw [backed.balance, represents.heldIn_eq stored]

end Runs

section Sample

open Sample

/-- A pool in one token that is stopped, and a pool in two tokens that is not. -/
def trading : Moment Erc20Ledger :=
  after staysBacked
    [(10, owner, .addPool tokenA tokenA 100 200 18 (units 1000)),
      (10, owner, .addPool tokenA tokenB 100 200 18 (units 1000)),
      (20, staker 1, .deposit (units 5000) 0), (30, staker 2, .deposit (units 700) 1),
      (150, owner, .stopReward 0), (170, staker 2, .withdraw (units 300) 1)]
    initialised (by decide +kernel)

private theorem run_trading : Run around staysBacked initialised trading :=
  run_after _

theorem balance_eq_heldIn_trading :
    (trading.world.outside.balance tokenA (.contract package) : ℤ) =
      heldIn tokenA trading.world.log
        (trading.world.storage.stakeInfos.get (by decide +kernel)) :=
  balance_eq_heldIn (Erc20Ledger.standard package)
    (fun e e' (same : e' = e) token => by rw [same]) (fun _ => rfl)
    run_trading (Option.some_get _).symm tokenA

def mixedStop : Moment Erc20Ledger :=
  after withoutSaveMe
    [(10, owner, .addPool tokenA tokenB 100 200 18 (units 1000)),
      (20, staker 1, .deposit (units 5000) 0), (50, owner, .stopReward 0)]
    initialised (by decide +kernel)

private theorem run_mixedStop : Run around withoutSaveMe initialised mixedStop :=
  run_after _

/-- The refund of a pool in two tokens is paid out of its stakes. -/
theorem balance_ne_heldIn :
    ¬ ∀ moment, Run around withoutSaveMe initialised moment →
      ∀ pools, moment.world.storage.stakeInfos = some pools → ∀ token,
        (moment.world.outside.balance token (.contract package) : ℤ) =
          heldIn token moment.world.log pools := by
  intro claim
  have refunded := claim mixedStop run_mixedStop
    (mixedStop.world.storage.stakeInfos.get (by decide +kernel))
    (Option.some_get _).symm tokenA
  exact absurd refunded (by decide +kernel)

end Sample

end CasperContracts.Staking
