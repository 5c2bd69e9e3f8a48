import CasperContracts.Staking.Pool

/-!
# The staking contract

The entry points of the contract as programs over its named keys and
dictionaries.  The source's functions return nothing; what a call settled is
recorded as events, which the contract never reads.
-/

namespace CasperContracts.Staking

open CasperContracts.Basis Host

/-- The named keys of the contract.  A key that has not been written yet is
absent. -/
structure Storage where
  admin : AccountHash
  initialized : Bool
  index : Option UInt64
  selfContractHash : Option ContractPackageHash
  stakeInfos : Option Dictionary
  userInfos : Option Dictionary
  deriving DecidableEq

/-- One pass of `update_pool` through its crediting branch: the seconds it
unlocked, the reward they are worth before scaling, the total stake it divided
by and the growth of the accumulator. -/
structure Credit where
  unlocked : UInt64
  rewards : U256
  totalStaked : U256
  share : U256
  deriving DecidableEq

/-- What a call settled. -/
inductive Event where
  | poolAdded (pool : StakePool)
  | credited (poolId : UInt64) (credit : Credit)
  | rewardPaid (poolId : UInt64) (account : AccountHash) (pending : U256)
  | deposited (poolId : UInt64) (account : AccountHash) (amount : U256)
  | withdrawn (poolId : UInt64) (account : AccountHash) (amount left : U256)
  | emergencyWithdrawn (poolId : UInt64) (account : AccountHash) (amount : U256)
  | stopped (poolId : UInt64) (now : UInt64) (refund : U256)
  deriving DecidableEq

abbrev Contract := Prog Storage Failure TokenCall Event

/-- `utils::get_key`. -/
def getKey {α : Type} : Option α → Except Failure α :=
  unwrapOrRevertWith .missingKey

/-- `storage::new_dictionary`, which refuses a name already in use. -/
def newDictionary : Option Dictionary → Except Failure Dictionary
  | some _ => .error (.revert .invalidArgument)
  | none => .ok ∅

def selfContractHash (storage : Storage) : Except Failure ContractPackageHash :=
  getKey storage.selfContractHash

def makePoolKeyId (poolId : UInt64) (storage : Storage) :
    Except Failure DictKey := do
  let cHash ← selfContractHash storage
  let preKey := cHash.toChars.take 15
  return preKey ++ decimal poolId

def makeUserKeyById (context : Context) (poolId : UInt64) : DictKey :=
  let accountHash := context.caller.toChars
  let preKey := accountHash.take 15
  preKey ++ decimal poolId

/-- Lets an id equal to the index through. -/
def isIdValid (input : UInt64) (storage : Storage) : Except Failure Unit := do
  let currentIndex ← getKey storage.index
  if currentIndex < input then
    .error (.revert .invalidArgument)
  else
    return ()

def getMax (a b : UInt64) : UInt64 :=
  if a > b then a else b

def getMin (a b : UInt64) : UInt64 :=
  if a > b then b else a

def getPool (poolId : UInt64) (storage : Storage) : Except Failure StakePool := do
  isIdValid poolId storage
  let seedUref ← unwrapOrRevertWith (.user 5) storage.stakeInfos
  let dictionaryItemKey ← makePoolKeyId poolId storage
  let stakePoolBytes ← unwrapOrRevertWith (.user 7) (seedUref.lookup dictionaryItemKey)
  orPanic (StakePool.unpack stakePoolBytes)

def getUserInfoForPool (context : Context) (poolId : UInt64) (storage : Storage) :
    Except Failure UserInfo := do
  isIdValid poolId storage
  let seedUref ← unwrapOrRevert storage.userInfos
  let dictionaryItemKey := makeUserKeyById context poolId
  match seedUref.lookup dictionaryItemKey with
  | some user => orPanic (UserInfo.unpack user)
  | none => return UserInfo.default

def updateStorage (context : Context) (stakePool : StakePool) (userInfo : UserInfo)
    (poolId : UInt64) (storage : Storage) : Except Failure Storage := do
  isIdValid poolId storage
  let newUserInfo := userInfo.pack
  let updatedPool := stakePool.pack
  let seedUref ← unwrapOrRevertWith (.user 1) storage.stakeInfos
  let userSeedUref ← unwrapOrRevertWith (.user 3) storage.userInfos
  let dictionaryItemKey ← makePoolKeyId poolId storage
  let userInfoKey := makeUserKeyById context poolId
  return { storage with
    stakeInfos := some (Finmap.insert dictionaryItemKey updatedPool seedUref)
    userInfos := some (Finmap.insert userInfoKey newUserInfo userSeedUref) }

/-- Write one pool record, as `add_pool` and `stop_reward` do. -/
def putPool (missing : ApiError) (poolId : UInt64) (pool : StakePool)
    (storage : Storage) : Except Failure Storage := do
  let seedUref ← unwrapOrRevertWith missing storage.stakeInfos
  let dictionaryItemKey ← makePoolKeyId poolId storage
  return { storage with
    stakeInfos := some (Finmap.insert dictionaryItemKey pool.pack seedUref) }

/-- The body of `update_pool` on the pool it has read: the updated pool and,
on the crediting branch, what it credited. -/
def updatedPool (now : UInt64) (pool : StakePool) :
    Except Failure (StakePool × Option Credit) :=
  let lastRewardTimestamp := pool.lastRewardTimestamp
  if now ≤ lastRewardTimestamp then
    return (pool, none)
  else
    let lpSupply := pool.totalStaked
    if lpSupply.isZero || pool.startTime > now then
      return ({ pool with lastRewardTimestamp := now }, none)
    else
      let endTime := pool.endTime
      if lastRewardTimestamp > endTime then
        return (pool, none)
      else do
        let start := pool.startTime
        let precision ← orPanic (U256.ten.checkedPow (.ofUInt64 pool.precision))
        -- `u64` subtraction wraps in the release build
        let unlocked := getMin now endTime - getMax start lastRewardTimestamp
        let rewardUnlocked := U256.ofUInt64 unlocked
        let rewards ← orPanic (rewardUnlocked.checkedMul pool.totalReward)
        let rewards ← orPanic (rewards.checkedDiv (.ofUInt64 (endTime - start)))
        let scaled ← orPanic (rewards.checkedMul precision)
        let share ← orPanic (scaled.checkedDiv pool.totalStaked)
        let accTokenPerShare ← orPanic (pool.accTokenPerShare.checkedAdd share)
        return ({ pool with accTokenPerShare, lastRewardTimestamp := now },
          some { unlocked, rewards, totalStaked := pool.totalStaked, share })

def updatePool (context : Context) (poolId : UInt64) : Contract StakePool := do
  let now := context.blocktime
  let pool ← Prog.reads (getPool poolId)
  let (updated, credit) ← Prog.ofExcept (updatedPool now pool)
  match credit with
  | some credit => Prog.record (.credited poolId credit)
  | none => pure ()
  return updated

/-- Arithmetic on `U256`, which panics where it has no result. -/
def arith {α : Type} (result : Option α) : Contract α :=
  Prog.ofExcept (orPanic result)

/-- `if condition { revert(error) }`. -/
def revertIf (condition : Prop) [Decidable condition] (error : ApiError) :
    Contract Unit :=
  if condition then .fail (.revert error) else pure ()

/-! ## Entry points -/

def init (contHash : ContractPackageHash) : Contract Unit := do
  let isInitialized ← Prog.reads fun storage => .ok storage.initialized
  revertIf isInitialized .permissionDenied
  Prog.updates fun storage => do
    let stakeInfos ← newDictionary storage.stakeInfos
    let userInfos ← newDictionary storage.userInfos
    return { storage with
      stakeInfos := some stakeInfos
      userInfos := some userInfos
      selfContractHash := some contHash
      index := some 0
      initialized := true }

def addPool (context : Context) (stakingToken rewardToken : ContractHash)
    (startTime endTime precision : UInt64) (totalReward : U256) : Contract Unit := do
  let timestamp := context.blocktime
  revertIf (startTime < timestamp ∨ endTime < timestamp) .invalidArgument
  revertIf totalReward.isZero .invalidArgument
  revertIf (¬ (18 ≤ precision ∧ precision ≤ 36)) .invalidArgument
  let _ ← Prog.reads fun storage => unwrapOrRevert storage.stakeInfos
  let currentIndex ← Prog.reads fun storage => getKey storage.index
  let newPool : StakePool := {
    id := currentIndex
    lastRewardTimestamp := 0
    stakingToken, rewardToken, startTime, endTime, precision
    owner := context.caller
    accTokenPerShare := U256.zero
    totalReward
    totalStaked := U256.zero }
  Prog.updates (putPool .none currentIndex newPool)
  let spender ← Prog.reads selfContractHash
  Prog.request (InteractErc20.transferFrom rewardToken context.caller spender totalReward)
  Prog.updates fun storage => .ok { storage with index := some (currentIndex + 1) }
  Prog.record (.poolAdded newPool)

def firstDeposit (context : Context) (amount newAmount : U256)
    (stakePool : StakePool) (poolId : UInt64) : Contract Unit := do
  let totalStaked ← arith (stakePool.totalStaked.checkedAdd amount)
  let product ← arith (newAmount.checkedMul stakePool.accTokenPerShare)
  let precision ← arith (U256.ten.checkedPow (.ofUInt64 stakePool.precision))
  let rewardDebt ← arith (product.checkedDiv precision)
  let spender ← Prog.reads selfContractHash
  Prog.request
    (InteractErc20.transferFrom stakePool.stakingToken context.caller spender amount)
  Prog.updates (updateStorage context { stakePool with totalStaked }
    { amount := newAmount, rewardDebt } poolId)
  Prog.record (.deposited poolId context.caller amount)

/-- The payment of a deposit that also claims `pending`. -/
def payDeposit (context : Context) (pending amount : U256)
    (rewardToken stakingToken : ContractHash) : Contract Unit :=
  match DepositScenario.getScenario pending amount rewardToken stakingToken with
  | .pendingZero => do
      let spender ← Prog.reads selfContractHash
      Prog.request (InteractErc20.transferFrom stakingToken context.caller spender amount)
  | .equalTokenPendingGreater => do
      let net ← arith (pending.checkedSub amount)
      Prog.request (InteractErc20.transfer stakingToken context.caller net)
  | .equalTokenPendingLesser => do
      let spender ← Prog.reads selfContractHash
      let net ← arith (amount.checkedSub pending)
      Prog.request (InteractErc20.transferFrom stakingToken context.caller spender net)
  | .claimRewardAndDeposit => do
      Prog.request (InteractErc20.transfer rewardToken context.caller pending)
      let spender ← Prog.reads selfContractHash
      Prog.request (InteractErc20.transferFrom stakingToken context.caller spender amount)

def topUpDeposit (context : Context) (amount newAmount : U256)
    (stakePool : StakePool) (userInfo : UserInfo) (poolId : UInt64) :
    Contract Unit := do
  let accTokenPerShare := stakePool.accTokenPerShare
  let precision ← arith (U256.ten.checkedPow (.ofUInt64 stakePool.precision))
  let product ← arith (userInfo.amount.checkedMul accTokenPerShare)
  let quotient ← arith (product.checkedDiv precision)
  let pending ← arith (quotient.checkedSub userInfo.rewardDebt)
  let totalStaked ← arith (stakePool.totalStaked.checkedAdd amount)
  let newProduct ← arith (newAmount.checkedMul accTokenPerShare)
  let rewardDebt ← arith (newProduct.checkedDiv precision)
  payDeposit context pending amount stakePool.rewardToken stakePool.stakingToken
  Prog.updates (updateStorage context { stakePool with totalStaked }
    { amount := newAmount, rewardDebt } poolId)
  Prog.record (.rewardPaid poolId context.caller pending)
  Prog.record (.deposited poolId context.caller amount)

def deposit (context : Context) (amount : U256) (poolId : UInt64) : Contract Unit := do
  revertIf amount.isZero .invalidArgument
  let stakePool ← updatePool context poolId
  let timestamp := context.blocktime
  revertIf (stakePool.endTime < timestamp) .invalidArgument
  let userInfo ← Prog.reads (getUserInfoForPool context poolId)
  let newAmount ← arith (amount.checkedAdd userInfo.amount)
  if userInfo.amount.isZero then
    firstDeposit context amount newAmount stakePool poolId
  else
    topUpDeposit context amount newAmount stakePool userInfo poolId

def payWithdraw (context : Context) (pending amount : U256)
    (rewardToken stakingToken : ContractHash) : Contract Unit :=
  match WithdrawScenario.getScenario pending rewardToken stakingToken with
  | .pendingZero =>
      Prog.request (InteractErc20.transfer stakingToken context.caller amount)
  | .equalTokens => do
      let total ← arith (pending.checkedAdd amount)
      Prog.request (InteractErc20.transfer stakingToken context.caller total)
  | .differentTokens => do
      Prog.request (InteractErc20.transfer rewardToken context.caller pending)
      Prog.request (InteractErc20.transfer stakingToken context.caller amount)

def withdraw (context : Context) (amount : U256) (poolId : UInt64) : Contract Unit := do
  revertIf amount.isZero .invalidArgument
  let userInfo ← Prog.reads (getUserInfoForPool context poolId)
  let stakePool ← updatePool context poolId
  revertIf userInfo.amount.isZero .invalidArgument
  let newAmount ← arith (userInfo.amount.checkedSub amount)
  let accTokenPerShare := stakePool.accTokenPerShare
  let precision ← arith (U256.ten.checkedPow (.ofUInt64 stakePool.precision))
  let product ← arith (userInfo.amount.checkedMul accTokenPerShare)
  let quotient ← arith (product.checkedDiv precision)
  let pending ← arith (quotient.checkedSub userInfo.rewardDebt)
  let totalStaked ← arith (stakePool.totalStaked.checkedSub amount)
  let newProduct ← arith (newAmount.checkedMul accTokenPerShare)
  let rewardDebt ← arith (newProduct.checkedDiv precision)
  payWithdraw context pending amount stakePool.rewardToken stakePool.stakingToken
  Prog.updates (updateStorage context { stakePool with totalStaked }
    { amount := newAmount, rewardDebt } poolId)
  Prog.record (.rewardPaid poolId context.caller pending)
  Prog.record (.withdrawn poolId context.caller amount newAmount)

def stopReward (context : Context) (poolId : UInt64) : Contract Unit := do
  let pool ← updatePool context poolId
  revertIf (pool.owner ≠ context.caller) .invalidPurse
  let now := context.blocktime
  let oldEndTime := pool.endTime
  revertIf (oldEndTime ≤ now) .invalidArgument
  -- both `u64` subtractions wrap in the release build
  let duration := U256.ofUInt64 (oldEndTime - pool.startTime)
  let remaining := U256.ofUInt64 (oldEndTime - getMax now pool.startTime)
  let amount ← arith (remaining.checkedMul pool.totalReward)
  let refund ← arith (amount.checkedDiv duration)
  Prog.request (InteractErc20.transfer pool.stakingToken context.caller refund)
  Prog.updates (putPool (.user 1) poolId { pool with endTime := now })
  Prog.record (.stopped poolId now refund)

def saveMe (context : Context) (tokenHash : ContractHash) (amount : U256) :
    Contract Unit := do
  let admin ← Prog.reads fun storage => .ok storage.admin
  revertIf (context.caller ≠ admin) .invalidPurse
  Prog.request (InteractErc20.transfer tokenHash context.caller amount)

def emergencyWithdraw (context : Context) (poolId : UInt64) : Contract Unit := do
  let stakePool ← Prog.reads (getPool poolId)
  let userInfo ← Prog.reads (getUserInfoForPool context poolId)
  let amount := userInfo.amount
  revertIf amount.isZero .invalidArgument
  let totalStaked ← arith (stakePool.totalStaked.checkedSub amount)
  Prog.request (InteractErc20.transfer stakePool.stakingToken context.caller amount)
  Prog.updates (updateStorage context { stakePool with totalStaked }
    { amount := U256.zero, rewardDebt := U256.zero } poolId)
  Prog.record (.emergencyWithdrawn poolId context.caller amount)

def setAdmin (context : Context) (account : AccountHash) : Contract Unit := do
  let admin ← Prog.reads fun storage => .ok storage.admin
  revertIf (context.caller ≠ admin) .invalidPurse
  Prog.updates fun storage => .ok { storage with admin := account }

inductive Call where
  | init (contHash : ContractPackageHash)
  | addPool (stakingToken rewardToken : ContractHash)
      (startTime endTime precision : UInt64) (totalReward : U256)
  | deposit (amount : U256) (poolId : UInt64)
  | withdraw (amount : U256) (poolId : UInt64)
  | emergencyWithdraw (poolId : UInt64)
  | stopReward (poolId : UInt64)
  | saveMe (tokenHash : ContractHash) (amount : U256)
  | setAdmin (account : AccountHash)
  deriving DecidableEq

def Call.program (context : Context) : Call → Contract Unit
  | .init contHash => Staking.init contHash
  | .addPool stakingToken rewardToken startTime endTime precision totalReward =>
      Staking.addPool context stakingToken rewardToken startTime endTime precision
        totalReward
  | .deposit amount poolId => Staking.deposit context amount poolId
  | .withdraw amount poolId => Staking.withdraw context amount poolId
  | .emergencyWithdraw poolId => Staking.emergencyWithdraw context poolId
  | .stopReward poolId => Staking.stopReward context poolId
  | .saveMe tokenHash amount => Staking.saveMe context tokenHash amount
  | .setAdmin account => Staking.setAdmin context account

end CasperContracts.Staking
