import CasperContracts.Basis.OwnerIndex
import CasperContracts.Staking.Stake
import CasperContracts.Vesting.Lock

/-!
# The vesting contract

The entry points of the contract as programs over its named keys and its
dictionary.  Besides the constant names, the contract has one named key for
each account that has owned a lock, the account's printed hash; under it stand
the ids of the account's locks.  A call knows the names that were there when it
started, and those it has created itself: `lock` and `claim`, which go on after
a request, look up beforehand whether the caller has a name.
-/

namespace CasperContracts.Vesting

open CasperContracts.Basis Host
open Staking (getKey newDictionary)

/-- The named keys of the contract.  The names of the accounts are hashes in
hexadecimal and different from all others. -/
structure Storage where
  admin : AccountHash
  initialized : Bool
  paused : Bool
  index : Option UInt64
  selfContractHash : Option ContractPackageHash
  lockInfos : Option Dictionary
  idArrays : FiniteStore (List Char) (List UInt64)
  deriving DecidableEq

/-- What a claim has paid: the schedules as its loop found and left them, and the
amount the loop added up. -/
structure Payout where
  lockId : UInt64
  payee : AccountHash
  timestamp : UInt64
  amount : U256
  before : List LockSchedule
  after : List LockSchedule
  deriving DecidableEq

/-- What a call settled; the contract never reads it. -/
inductive Event where
  | locked (info : VestInfo)
  | claimed (payout : Payout)
  deriving DecidableEq

abbrev Contract := Prog Storage Failure TokenCall Event

def checkedAdd (a b : UInt64) : Option UInt64 :=
  if a.toNat + b.toNat < 2 ^ 64 then some (a + b) else none

def checkedMul (a b : UInt64) : Option UInt64 :=
  if a.toNat * b.toNat < 2 ^ 64 then some (a * b) else none

def selfContractHash (storage : Storage) : Except Failure ContractPackageHash :=
  getKey storage.selfContractHash

def makeLockKeyId (lockId : UInt64) (storage : Storage) : Except Failure DictKey := do
  let cHash ← selfContractHash storage
  let preKey := cHash.toChars.take 15
  return preKey ++ decimal lockId

/-- Lets an id equal to the index through. -/
def isIdValid (input : UInt64) (storage : Storage) : Except Failure Unit := do
  let currentIndex ← getKey storage.index
  if currentIndex < input then
    .error (.revert .invalidArgument)
  else
    return ()

def isValidEntry (src : List UInt8) : Except Failure Unit :=
  if src = [] then .error (.revert .missingKey) else return ()

def callerIsRecipient (context : Context) (src : List UInt8) : Except Failure Unit := do
  let recipient ← VestInfo.unpackRecipient src
  if recipient ≠ context.caller.value.val then
    .error (.revert .invalidPurse)
  else
    return ()

def getLock (context : Context) (lockId : UInt64) (storage : Storage) :
    Except Failure (VestInfo × DictKey) := do
  isIdValid lockId storage
  let seedUref ← unwrapOrRevert storage.lockInfos
  let dictionaryItemKey ← makeLockKeyId lockId storage
  let lockBytes ← unwrapOrRevert (seedUref.lookup dictionaryItemKey)
  isValidEntry lockBytes
  callerIsRecipient context lockBytes
  let lock ← VestInfo.unpack lockBytes
  return (lock, dictionaryItemKey)

/-- `storage::dictionary_put`.  The seed of the dictionary was read before; it
never changes. -/
def dictionaryPut (dictionaryItemKey : DictKey) (value : List UInt8) (storage : Storage) :
    Except Failure Storage := do
  let seedUref ← unwrapOrRevert storage.lockInfos
  return { storage with
    lockInfos := some (Finmap.insert dictionaryItemKey value seedUref) }

/-- `utils::set_key` for the ids of an account. -/
def setIdArr (userKey : List Char) (idArr : List UInt64) (storage : Storage) : Storage :=
  { storage with idArrays := Finmap.insert userKey idArr storage.idArrays }

/-- `runtime::has_key` for the ids of an account. -/
def hasKey (userKey : List Char) (storage : Storage) : Bool :=
  (storage.idArrays.lookup userKey).isSome

/-- Push an id to the list of an account, which may not exist yet. -/
def pushId (userKey : List Char) (index : UInt64) (storage : Storage) : Storage :=
  match storage.idArrays.lookup userKey with
  | none => setIdArr userKey [index] storage
  | some idArr => setIdArr userKey (idArr ++ [index]) storage

/-- Push an id in a call that knows the name of the account, or does not.  In the second
case it starts a new list, even if a call inside it has started one since. -/
def enlist (known : Bool) (userKey : List Char) (index : UInt64) (storage : Storage) :
    Storage :=
  if known then pushId userKey index storage else setIdArr userKey [index] storage

/-- Swap an id out of the list of an account. -/
def dropId (userKey : List Char) (lockId : UInt64) (storage : Storage) :
    Except Failure Storage := do
  let idArr ← getKey (storage.idArrays.lookup userKey)
  let idx ← orPanic (idArr.idxOf? lockId)
  return setIdArr userKey (swapRemove idArr idx) storage

def updateStorage (known : Bool) (dictionaryItemKey : DictKey) (res : List UInt8)
    (index : UInt64) (userKey : List Char) (storage : Storage) : Except Failure Storage := do
  let storage ← dictionaryPut dictionaryItemKey res storage
  return enlist known userKey index storage

def updateStorageTransferLock (dictionaryItemKey : DictKey) (index : UInt64)
    (oldOwnerKey newOwnerKey : List Char) (newLock : List UInt8) (storage : Storage) :
    Except Failure Storage := do
  let storage ← dropId oldOwnerKey index storage
  let storage ← dictionaryPut dictionaryItemKey newLock storage
  return pushId newOwnerKey index storage

def revertIf (condition : Prop) [Decidable condition] (error : ApiError) :
    Contract Unit :=
  if condition then .fail (.revert error) else pure ()

def isPaused : Contract Bool :=
  Prog.reads fun storage => .ok storage.paused

/-- Whether the name of the caller is among those that a call starting now knows. -/
def knowsCaller (context : Context) : Contract Bool :=
  Prog.reads fun storage => .ok (hasKey context.caller.toChars storage)

/-- The loop of `lock`. -/
def newSchedules (firstUnlock timeBetweenLocks : UInt64) (cliffAmount : U256)
    (numberOfLocks : UInt32) : Except Failure (List LockSchedule) :=
  (List.range numberOfLocks.toNat).mapM fun len => do
    let offset ← unwrapOrRevert (checkedMul timeBetweenLocks (.ofNat len))
    let amount ← orPanic (cliffAmount.checkedDiv (.ofUInt64 numberOfLocks.toUInt64))
    -- this `u64` addition wraps in the release build
    return { release := firstUnlock + offset, amount }

/-- The loop of `claim`: what is due is added up and zeroed. -/
def claimSchedules (timestamp : UInt64) :
    List LockSchedule → U256 → Option (U256 × List LockSchedule)
  | [], amountToTransfer => some (amountToTransfer, [])
  | s :: rest, amountToTransfer =>
      if timestamp ≥ s.release then do
        let amountToTransfer ← amountToTransfer.checkedAdd s.amount
        let (amountToTransfer, rest) ← claimSchedules timestamp rest amountToTransfer
        return (amountToTransfer, { s with amount := U256.zero } :: rest)
      else do
        let (amountToTransfer, rest) ← claimSchedules timestamp rest amountToTransfer
        return (amountToTransfer, s :: rest)

/-! ## Entry points -/

def init (contHash : ContractPackageHash) : Contract Unit := do
  let isInitialized ← Prog.reads fun storage => .ok storage.initialized
  revertIf isInitialized .permissionDenied
  Prog.updates fun storage => do
    let lockInfos ← newDictionary storage.lockInfos
    return { storage with
      lockInfos := some lockInfos
      selfContractHash := some contHash
      index := some 0
      initialized := true }

def lock (context : Context) (tokh : ContractHash) (cliffAmount : U256)
    (cliffDurtime timeBetweenLocks : UInt64) (numberOfLocks : UInt32) : Contract Unit := do
  let known ← knowsCaller context
  let paused ← isPaused
  revertIf paused (.user 14)
  let _ ← Prog.reads fun storage => unwrapOrRevert storage.lockInfos
  let timestamp := context.blocktime
  let firstUnlock ← Prog.ofExcept (unwrapOrRevert (checkedAdd timestamp cliffDurtime))
  revertIf (numberOfLocks = 0) .invalidArgument
  let schedules ←
    Prog.ofExcept (newSchedules firstUnlock timeBetweenLocks cliffAmount numberOfLocks)
  let currentIndex ← Prog.reads fun storage => getKey storage.index
  let dictionaryItemKey ← Prog.reads (makeLockKeyId currentIndex)
  let info : VestInfo := {
    id := currentIndex
    lockTime := timestamp
    recipient := context.caller
    tokenHash := tokh
    schedules }
  let spender ← Prog.reads selfContractHash
  Prog.request (InteractErc20.transferFrom tokh context.caller spender cliffAmount)
  Prog.updates
    (updateStorage known dictionaryItemKey info.pack currentIndex context.caller.toChars)
  Prog.updates fun storage => .ok { storage with index := some (currentIndex + 1) }
  Prog.record (.locked info)

def extendLock (context : Context) (lockId : UInt64) (index : UInt32)
    (newRelease : UInt64) : Contract Unit := do
  let paused ← isPaused
  revertIf paused (.user 14)
  let (lock, dictionaryItemKey) ← Prog.reads (getLock context lockId)
  match lock.schedules[index.toNat]? with
  | none => Prog.fail (.revert .invalidArgument)
  | some schedule => do
      revertIf (schedule.release > newRelease) .none
      let schedules :=
        lock.schedules.set index.toNat { schedule with release := newRelease }
      Prog.updates (dictionaryPut dictionaryItemKey { lock with schedules }.pack)

def transferLock (context : Context) (lockId : UInt64) (newOwner : AccountHash) :
    Contract Unit := do
  let paused ← isPaused
  revertIf paused (.user 14)
  let (lock, dictionaryItemKey) ← Prog.reads (getLock context lockId)
  let lock := { lock with recipient := newOwner }
  Prog.updates (updateStorageTransferLock dictionaryItemKey lock.id context.caller.toChars
    newOwner.toChars lock.pack)

/-- The end of `claim`: the lock with what is left, or nothing.  The list of the caller is
found under a name that the call knows. -/
def storeClaimed (context : Context) (known : Bool) (lockId : UInt64) (lock : VestInfo)
    (dictionaryItemKey : DictKey) (storage : Storage) : Except Failure Storage :=
  let totalLocks := lock.schedules.length
  let emptyLocks := lock.schedules.countP fun s => s.amount.isZero
  if totalLocks = emptyLocks then do
    let storage ← dictionaryPut dictionaryItemKey VestInfo.clearEntry storage
    if known then
      dropId context.caller.toChars lockId storage
    else
      .error (.revert .missingKey)
  else
    dictionaryPut dictionaryItemKey lock.pack storage

def claim (context : Context) (lockId : UInt64) : Contract Unit := do
  let known ← knowsCaller context
  let paused ← isPaused
  revertIf paused (.user 14)
  let (lock, dictionaryItemKey) ← Prog.reads (getLock context lockId)
  let timestamp := context.blocktime
  let (amountToTransfer, schedules) ←
    Prog.ofExcept (orPanic (claimSchedules timestamp lock.schedules U256.zero))
  revertIf amountToTransfer.isZero (.user 9)
  Prog.request (InteractErc20.transfer lock.tokenHash context.caller amountToTransfer)
  Prog.updates (storeClaimed context known lockId { lock with schedules } dictionaryItemKey)
  Prog.record (.claimed {
    lockId
    payee := context.caller
    timestamp
    amount := amountToTransfer
    before := lock.schedules
    after := schedules })

def setAdmin (context : Context) (account : AccountHash) : Contract Unit := do
  let admin ← Prog.reads fun storage => .ok storage.admin
  revertIf (context.caller ≠ admin) .invalidPurse
  Prog.updates fun storage => .ok { storage with admin := account }

def setPauseContract (context : Context) : Contract Unit := do
  let admin ← Prog.reads fun storage => .ok storage.admin
  revertIf (context.caller ≠ admin) .invalidPurse
  let currentState ← isPaused
  Prog.updates fun storage => .ok { storage with paused := !currentState }

inductive Call where
  | init (contHash : ContractPackageHash)
  | lock (tokh : ContractHash) (cliffAmount : U256)
      (cliffDurtime timeBetweenLocks : UInt64) (numberOfLocks : UInt32)
  | extendLock (lockId : UInt64) (index : UInt32) (newRelease : UInt64)
  | transferLock (lockId : UInt64) (newOwner : AccountHash)
  | claim (lockId : UInt64)
  | setAdmin (account : AccountHash)
  | setPauseContract
  deriving DecidableEq

def Call.program (context : Context) : Call → Contract Unit
  | .init contHash => Vesting.init contHash
  | .lock tokh cliffAmount cliffDurtime timeBetweenLocks numberOfLocks =>
      Vesting.lock context tokh cliffAmount cliffDurtime timeBetweenLocks numberOfLocks
  | .extendLock lockId index newRelease =>
      Vesting.extendLock context lockId index newRelease
  | .transferLock lockId newOwner => Vesting.transferLock context lockId newOwner
  | .claim lockId => Vesting.claim context lockId
  | .setAdmin account => Vesting.setAdmin context account
  | .setPauseContract => Vesting.setPauseContract context

end CasperContracts.Vesting
