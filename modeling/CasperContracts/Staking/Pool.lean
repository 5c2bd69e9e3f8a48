import CasperContracts.Host.Token

/-!
# Pool and user records

The two records of the staking contract, their packed byte layouts, and the
case distinctions that choose how a deposit and a withdrawal are paid.
-/

namespace CasperContracts.Staking

open CasperContracts.Basis Host

/-- The bytes pushed by `for i in low..high { res.push(buffer[i - low]) }`. -/
def pushRange (low high : Nat) (buffer : List UInt8) : List UInt8 :=
  (List.range' low (high - low)).map fun i => buffer.getD (i - low) 0

/-- `src[low..high]`, which panics outside of `src`. -/
def slice (src : List UInt8) (low high : Nat) : Option (List UInt8) :=
  if low ≤ high ∧ high ≤ src.length then
    some ((src.drop low).take (high - low))
  else
    none

/-- A 64-byte buffer whose first half holds a word. -/
def wordBuffer (value : U256) : List UInt8 :=
  value.toLittleEndian ++ List.replicate 32 0

/-- `u64::into_bytes`. -/
def u64Bytes (value : UInt64) : List UInt8 :=
  leBytes 8 value.toNat

/-- `u64::from_le_bytes` of a slice that must have eight bytes. -/
def u64FromLeBytes (bytes : List UInt8) : Option UInt64 :=
  if bytes.length = 8 then some (UInt64.ofNat (leValue bytes)) else none

structure UserInfo where
  amount : U256
  rewardDebt : U256
  deriving DecidableEq

namespace UserInfo

def pack (user : UserInfo) : List UInt8 :=
  (wordBuffer user.amount).take 32 ++ pushRange 32 64 (wordBuffer user.rewardDebt)

def unpack (src : List UInt8) : Option UserInfo := do
  let amount ← U256.fromLittleEndian (← slice src 0 32)
  let rewardDebt ← U256.fromLittleEndian (← slice src 32 64)
  return { amount, rewardDebt }

def default : UserInfo where
  amount := U256.zero
  rewardDebt := U256.zero

end UserInfo

structure StakePool where
  id : UInt64
  lastRewardTimestamp : UInt64
  stakingToken : ContractHash
  rewardToken : ContractHash
  startTime : UInt64
  endTime : UInt64
  precision : UInt64
  owner : AccountHash
  totalReward : U256
  accTokenPerShare : U256
  totalStaked : U256
  deriving DecidableEq

namespace StakePool

def pack (pool : StakePool) : List UInt8 :=
  u64Bytes pool.id ++
  pushRange 8 16 (u64Bytes pool.lastRewardTimestamp) ++
  pushRange 16 48 pool.stakingToken.value.val ++
  pushRange 48 80 pool.rewardToken.value.val ++
  pushRange 80 88 (u64Bytes pool.startTime) ++
  pushRange 88 96 (u64Bytes pool.endTime) ++
  pushRange 96 104 (u64Bytes pool.precision) ++
  pushRange 104 136 pool.owner.value.val ++
  pushRange 136 168 (wordBuffer pool.totalReward) ++
  pushRange 168 200 (wordBuffer pool.accTokenPerShare) ++
  pushRange 200 232 (wordBuffer pool.totalStaked)

def unpack (src : List UInt8) : Option StakePool := do
  let id ← u64FromLeBytes (← slice src 0 8)
  let lastRewardTimestamp ← u64FromLeBytes (← slice src 8 16)
  let stakingToken ← bytes32? (← slice src 16 48)
  let rewardToken ← bytes32? (← slice src 48 80)
  let startTime ← u64FromLeBytes (← slice src 80 88)
  let endTime ← u64FromLeBytes (← slice src 88 96)
  let precision ← u64FromLeBytes (← slice src 96 104)
  let owner ← bytes32? (← slice src 104 136)
  let totalReward ← U256.fromLittleEndian (← slice src 136 168)
  let accTokenPerShare ← U256.fromLittleEndian (← slice src 168 200)
  let totalStaked ← U256.fromLittleEndian (← slice src 200 232)
  return {
    id, lastRewardTimestamp
    stakingToken := ⟨stakingToken⟩
    rewardToken := ⟨rewardToken⟩
    startTime, endTime, precision
    owner := ⟨owner⟩
    totalReward, accTokenPerShare, totalStaked }

/-- The 32 bytes of the owner, without unpacking the rest. -/
def unpackOwner (src : List UInt8) : Option (List UInt8) :=
  slice src 104 136

end StakePool

/-! ## Payment scenarios -/

inductive DepositScenario where
  | pendingZero
  | equalTokenPendingGreater
  | equalTokenPendingLesser
  | claimRewardAndDeposit
  deriving DecidableEq

def DepositScenario.getScenario (pending amount : U256)
    (rewardToken stakingToken : ContractHash) : DepositScenario :=
  if pending.isZero then
    .pendingZero
  else
    let pendingGtAmount := decide (pending.toNat > amount.toNat)
    let rewardTokenEqStakingToken := decide (rewardToken = stakingToken)
    if pendingGtAmount && rewardTokenEqStakingToken then
      .equalTokenPendingGreater
    else if !pendingGtAmount && rewardTokenEqStakingToken then
      .equalTokenPendingLesser
    else
      .claimRewardAndDeposit

inductive WithdrawScenario where
  | pendingZero
  | equalTokens
  | differentTokens
  deriving DecidableEq

def WithdrawScenario.getScenario (pending : U256)
    (rewardToken stakingToken : ContractHash) : WithdrawScenario :=
  if pending.isZero then
    .pendingZero
  else if rewardToken = stakingToken then
    .equalTokens
  else
    .differentTokens

end CasperContracts.Staking
