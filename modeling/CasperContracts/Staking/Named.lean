import CasperContracts.Host.Frame
import CasperContracts.Staking.Stake

/-!
# The staking contract over named keys

The same entry points one level down, where the storage is the global state: each
read and write goes through `Utils.getKey`, `Utils.setKey` or a dictionary seed under
the name the source gives, with the error the source gives when the name is missing
or holds a key of another kind.  Every call works on a frame of its own.
-/

namespace CasperContracts.Staking.Named

open CasperContracts.Basis Host

def contractName : Name := "stake_contract".toList

def keyNameAdmin : Name := "admin-account".toList

def keyNameIndex : Name := "index".toList

def keyNameSelfContractHash : Name := "self_contract_hash".toList

def keyNameDicStakeInfos : Name := "dic_stake_infos".toList

def keyNameUserInfos : Name := "user_infos".toList

def keyNameInitialized : Name := "initialized".toList

abbrev Contract := Prog Frame Fault TokenCall Event

def selfContractHash : Frame → Except Fault ContractPackageHash :=
  Utils.getKey ContractPackageHash keyNameSelfContractHash

def makePoolKeyId (poolId : UInt64) (frame : Frame) : Except Fault DictKey := do
  let cHash ← selfContractHash frame
  let preKey := cHash.toChars.take 15
  return preKey ++ decimal poolId

/-- Lets an id equal to the index through. -/
def isIdValid (input : UInt64) (frame : Frame) : Except Fault Unit := do
  let currentIndex ← Utils.getKey UInt64 keyNameIndex frame
  if currentIndex < input then
    .error (reverts .invalidArgument)
  else
    return ()

def getPool (poolId : UInt64) (frame : Frame) : Except Fault StakePool := do
  isIdValid poolId frame
  let seedUref ← frame.seedURef (.user 5) (.user 6) keyNameDicStakeInfos
  let dictionaryItemKey ← makePoolKeyId poolId frame
  let stakePoolBytes ←
    orFault (reverts (.user 7)) (frame.dictionaryGet seedUref dictionaryItemKey)
  orFailure (orPanic (StakePool.unpack stakePoolBytes))

def getUserInfoForPool (context : Context) (poolId : UInt64) (frame : Frame) :
    Except Fault UserInfo := do
  isIdValid poolId frame
  let seedUref ← frame.seedURef .none .none keyNameUserInfos
  let dictionaryItemKey := makeUserKeyById context poolId
  match frame.dictionaryGet seedUref dictionaryItemKey with
  | some user => orFailure (orPanic (UserInfo.unpack user))
  | none => return UserInfo.default

def updateStorage (context : Context) (stakePool : StakePool) (userInfo : UserInfo)
    (poolId : UInt64) (frame : Frame) : Except Fault Frame := do
  isIdValid poolId frame
  let newUserInfo := userInfo.pack
  let updatedPool := stakePool.pack
  let seedUref ← frame.seedURef (.user 1) (.user 2) keyNameDicStakeInfos
  let userSeedUref ← frame.seedURef (.user 3) (.user 4) keyNameUserInfos
  let dictionaryItemKey ← makePoolKeyId poolId frame
  let userInfoKey := makeUserKeyById context poolId
  let frame := frame.dictionaryPut seedUref dictionaryItemKey updatedPool
  return frame.dictionaryPut userSeedUref userInfoKey newUserInfo

/-- The end of `stop_reward`. -/
def putPool (poolId : UInt64) (pool : StakePool) (frame : Frame) :
    Except Fault Frame := do
  let seedUref ← frame.seedURef (.user 1) (.user 2) keyNameDicStakeInfos
  let dictionaryItemKey ← makePoolKeyId poolId frame
  return frame.dictionaryPut seedUref dictionaryItemKey pool.pack

def updatePool (context : Context) (poolId : UInt64) : Contract StakePool := do
  let now := context.blocktime
  let pool ← Prog.reads (getPool poolId)
  let (updated, credit) ← Prog.ofExcept (orFailure (updatedPool now pool))
  match credit with
  | some credit => Prog.record (.credited poolId credit)
  | none => pure ()
  return updated

/-- Arithmetic on `U256`, which panics where it has no result. -/
def arith {α : Type} (result : Option α) : Contract α :=
  Prog.ofExcept (orFailure (orPanic result))

def revertIf (condition : Prop) [Decidable condition] (error : ApiError) :
    Contract Unit :=
  if condition then .fail (reverts error) else pure ()

/-! ## Entry points -/

def init (contHash : ContractPackageHash) : Contract Unit := do
  let isInitialized ← Prog.reads (Utils.getKey Bool keyNameInitialized)
  revertIf isInitialized .permissionDenied
  Prog.updates fun frame => do
    let frame ← frame.newDictionary keyNameDicStakeInfos
    let frame ← frame.newDictionary keyNameUserInfos
    let frame ← Utils.setKey keyNameSelfContractHash contHash frame
    let frame ← Utils.setKey keyNameIndex (0 : UInt64) frame
    Utils.setKey keyNameInitialized true frame

def addPool (context : Context) (stakingToken rewardToken : ContractHash)
    (startTime endTime precision : UInt64) (totalReward : U256) : Contract Unit := do
  let timestamp := context.blocktime
  revertIf (startTime < timestamp ∨ endTime < timestamp) .invalidArgument
  revertIf totalReward.isZero .invalidArgument
  revertIf (¬ (18 ≤ precision ∧ precision ≤ 36)) .invalidArgument
  let seedUref ← Prog.reads fun frame => frame.seedURef .none .none keyNameDicStakeInfos
  let currentIndex ← Prog.reads (Utils.getKey UInt64 keyNameIndex)
  let newPool : StakePool := {
    id := currentIndex
    lastRewardTimestamp := 0
    stakingToken, rewardToken, startTime, endTime, precision
    owner := context.caller
    accTokenPerShare := U256.zero
    totalReward
    totalStaked := U256.zero }
  Prog.updates fun frame => do
    let dictionaryItemKey ← makePoolKeyId currentIndex frame
    return frame.dictionaryPut seedUref dictionaryItemKey newPool.pack
  let spender ← Prog.reads selfContractHash
  Prog.request (InteractErc20.transferFrom rewardToken context.caller spender totalReward)
  Prog.updates (Utils.setKey keyNameIndex (currentIndex + 1))
  Prog.record (.poolAdded newPool)

def firstDeposit (context : Context) (amount newAmount : U256)
    (stakePool : StakePool) (poolId : UInt64) : Contract Unit := do
  let totalStaked ← arith (stakePool.totalStaked.checkedAdd amount)
  let product ← arith (newAmount.checkedMul stakePool.accTokenPerShare)
  let precision ← arith (U256.ten.checkedPow (.ofUInt64 stakePool.precision))
  let rewardDebt ← arith (product.checkedDiv precision)
  let spender ← Prog.reads selfContractHash
  Prog.request
    (InteractErc20.transferFrom stakePool.stakingToken context.caller spender amount)
  Prog.updates (updateStorage context { stakePool with totalStaked }
    { amount := newAmount, rewardDebt } poolId)
  Prog.record (.deposited poolId context.caller amount)

def payDeposit (context : Context) (pending amount : U256)
    (rewardToken stakingToken : ContractHash) : Contract Unit :=
  match DepositScenario.getScenario pending amount rewardToken stakingToken with
  | .pendingZero => do
      let spender ← Prog.reads selfContractHash
      Prog.request (InteractErc20.transferFrom stakingToken context.caller spender amount)
  | .equalTokenPendingGreater => do
      let net ← arith (pending.checkedSub amount)
      Prog.request (InteractErc20.transfer stakingToken context.caller net)
  | .equalTokenPendingLesser => do
      let spender ← Prog.reads selfContractHash
      let net ← arith (amount.checkedSub pending)
      Prog.request (InteractErc20.transferFrom stakingToken context.caller spender net)
  | .claimRewardAndDeposit => do
      Prog.request (InteractErc20.transfer rewardToken context.caller pending)
      let spender ← Prog.reads selfContractHash
      Prog.request (InteractErc20.transferFrom stakingToken context.caller spender amount)

def topUpDeposit (context : Context) (amount newAmount : U256)
    (stakePool : StakePool) (userInfo : UserInfo) (poolId : UInt64) :
    Contract Unit := do
  let accTokenPerShare := stakePool.accTokenPerShare
  let precision ← arith (U256.ten.checkedPow (.ofUInt64 stakePool.precision))
  let product ← arith (userInfo.amount.checkedMul accTokenPerShare)
  let quotient ← arith (product.checkedDiv precision)
  let pending ← arith (quotient.checkedSub userInfo.rewardDebt)
  let totalStaked ← arith (stakePool.totalStaked.checkedAdd amount)
  let newProduct ← arith (newAmount.checkedMul accTokenPerShare)
  let rewardDebt ← arith (newProduct.checkedDiv precision)
  payDeposit context pending amount stakePool.rewardToken stakePool.stakingToken
  Prog.updates (updateStorage context { stakePool with totalStaked }
    { amount := newAmount, rewardDebt } poolId)
  Prog.record (.rewardPaid poolId context.caller pending)
  Prog.record (.deposited poolId context.caller amount)

def deposit (context : Context) (amount : U256) (poolId : UInt64) : Contract Unit := do
  revertIf amount.isZero .invalidArgument
  let stakePool ← updatePool context poolId
  let timestamp := context.blocktime
  revertIf (stakePool.endTime < timestamp) .invalidArgument
  let userInfo ← Prog.reads (getUserInfoForPool context poolId)
  let newAmount ← arith (amount.checkedAdd userInfo.amount)
  if userInfo.amount.isZero then
    firstDeposit context amount newAmount stakePool poolId
  else
    topUpDeposit context amount newAmount stakePool userInfo poolId

def payWithdraw (context : Context) (pending amount : U256)
    (rewardToken stakingToken : ContractHash) : Contract Unit :=
  match WithdrawScenario.getScenario pending rewardToken stakingToken with
  | .pendingZero =>
      Prog.request (InteractErc20.transfer stakingToken context.caller amount)
  | .equalTokens => do
      let total ← arith (pending.checkedAdd amount)
      Prog.request (InteractErc20.transfer stakingToken context.caller total)
  | .differentTokens => do
      Prog.request (InteractErc20.transfer rewardToken context.caller pending)
      Prog.request (InteractErc20.transfer stakingToken context.caller amount)

def withdraw (context : Context) (amount : U256) (poolId : UInt64) : Contract Unit := do
  revertIf amount.isZero .invalidArgument
  let userInfo ← Prog.reads (getUserInfoForPool context poolId)
  let stakePool ← updatePool context poolId
  revertIf userInfo.amount.isZero .invalidArgument
  let newAmount ← arith (userInfo.amount.checkedSub amount)
  let accTokenPerShare := stakePool.accTokenPerShare
  let precision ← arith (U256.ten.checkedPow (.ofUInt64 stakePool.precision))
  let product ← arith (userInfo.amount.checkedMul accTokenPerShare)
  let quotient ← arith (product.checkedDiv precision)
  let pending ← arith (quotient.checkedSub userInfo.rewardDebt)
  let totalStaked ← arith (stakePool.totalStaked.checkedSub amount)
  let newProduct ← arith (newAmount.checkedMul accTokenPerShare)
  let rewardDebt ← arith (newProduct.checkedDiv precision)
  payWithdraw context pending amount stakePool.rewardToken stakePool.stakingToken
  Prog.updates (updateStorage context { stakePool with totalStaked }
    { amount := newAmount, rewardDebt } poolId)
  Prog.record (.rewardPaid poolId context.caller pending)
  Prog.record (.withdrawn poolId context.caller amount newAmount)

def stopReward (context : Context) (poolId : UInt64) : Contract Unit := do
  let pool ← updatePool context poolId
  revertIf (pool.owner ≠ context.caller) .invalidPurse
  let now := context.blocktime
  let oldEndTime := pool.endTime
  revertIf (oldEndTime ≤ now) .invalidArgument
  -- both `u64` subtractions wrap in the release build
  let duration := U256.ofUInt64 (oldEndTime - pool.startTime)
  let remaining := U256.ofUInt64 (oldEndTime - getMax now pool.startTime)
  let amount ← arith (remaining.checkedMul pool.totalReward)
  let refund ← arith (amount.checkedDiv duration)
  Prog.request (InteractErc20.transfer pool.stakingToken context.caller refund)
  Prog.updates (putPool poolId { pool with endTime := now })
  Prog.record (.stopped poolId now refund)

def saveMe (context : Context) (tokenHash : ContractHash) (amount : U256) :
    Contract Unit := do
  let admin ← Prog.reads (Utils.getKey AccountHash keyNameAdmin)
  revertIf (context.caller ≠ admin) .invalidPurse
  Prog.request (InteractErc20.transfer tokenHash context.caller amount)

def emergencyWithdraw (context : Context) (poolId : UInt64) : Contract Unit := do
  let stakePool ← Prog.reads (getPool poolId)
  let userInfo ← Prog.reads (getUserInfoForPool context poolId)
  let amount := userInfo.amount
  revertIf amount.isZero .invalidArgument
  let totalStaked ← arith (stakePool.totalStaked.checkedSub amount)
  Prog.request (InteractErc20.transfer stakePool.stakingToken context.caller amount)
  Prog.updates (updateStorage context { stakePool with totalStaked }
    { amount := U256.zero, rewardDebt := U256.zero } poolId)
  Prog.record (.emergencyWithdrawn poolId context.caller amount)

def setAdmin (context : Context) (account : AccountHash) : Contract Unit := do
  let admin ← Prog.reads (Utils.getKey AccountHash keyNameAdmin)
  revertIf (context.caller ≠ admin) .invalidPurse
  Prog.updates (Utils.setKey keyNameAdmin account)

def body (context : Context) : Call → Contract Unit
  | .init contHash => init contHash
  | .addPool stakingToken rewardToken startTime endTime precision totalReward =>
      addPool context stakingToken rewardToken startTime endTime precision totalReward
  | .deposit amount poolId => deposit context amount poolId
  | .withdraw amount poolId => withdraw context amount poolId
  | .emergencyWithdraw poolId => emergencyWithdraw context poolId
  | .stopReward poolId => stopReward context poolId
  | .saveMe tokenHash amount => saveMe context tokenHash amount
  | .setAdmin account => setAdmin context account

/-- A call copies the named keys of the contract when it starts. -/
def program (context : Context) (entry : Call) : Prog GlobalState Fault TokenCall Event Unit :=
  (body context entry).framed GlobalState.namedKeys

/-- What the installer's `call` leaves to the contract: its named keys with the values
they start from. -/
def call (installer : Context) : GlobalState :=
  let (counterLocalKey, state) := GlobalState.empty.newURef (toValue (0 : Int32))
  let (adminKey, state) := state.newURef (toValue installer.caller)
  let (initializedKey, state) := state.newURef (toValue false)
  let state := state.putKey contractName (.uref counterLocalKey)
  let state := state.putKey keyNameAdmin (.uref adminKey)
  state.putKey keyNameInitialized (.uref initializedKey)

end CasperContracts.Staking.Named
