import CasperContracts.Host.Frame
import CasperContracts.Vesting.Vest

/-!
# The vesting contract over named keys

The same entry points one level down, where the storage is the global state: each
read and write goes through `Utils.getKey` and `Utils.setKey` under the name the
source gives, the seed of the dictionary is looked up once in a call, and the ids
of an account stand under its printed hash, among the constant names.  Every call
works on a frame of its own.
-/

namespace CasperContracts.Vesting.Named

open CasperContracts.Basis Host

def contractName : Name := "control-erc20".toList

def keyNameAdmin : Name := "admin-account".toList

def keyNameIndex : Name := "index".toList

def keyNameSelfContractHash : Name := "self_contract_hash".toList

def keyNameDicLockInfos : Name := "dic_locker_infos".toList

def keyNameInitialized : Name := "initialized".toList

def keyNamePaused : Name := "paused".toList

abbrev Contract := Prog Frame Fault TokenCall Event

def selfContractHash : Frame → Except Fault ContractPackageHash :=
  Utils.getKey ContractPackageHash keyNameSelfContractHash

def makeLockKeyId (lockId : UInt64) (frame : Frame) : Except Fault DictKey := do
  let cHash ← selfContractHash frame
  let preKey := cHash.toChars.take 15
  return preKey ++ decimal lockId

/-- Lets an id equal to the index through. -/
def isIdValid (input : UInt64) (frame : Frame) : Except Fault Unit := do
  let currentIndex ← Utils.getKey UInt64 keyNameIndex frame
  if currentIndex < input then
    .error (reverts .invalidArgument)
  else
    return ()

def seedUref : Frame → Except Fault URef :=
  Frame.seedURef .none .none keyNameDicLockInfos

def getLock (context : Context) (lockId : UInt64) (frame : Frame) :
    Except Fault (VestInfo × URef × DictKey) := do
  isIdValid lockId frame
  let seedUref ← seedUref frame
  let dictionaryItemKey ← makeLockKeyId lockId frame
  let lockBytes ← orFault (reverts .none) (frame.dictionaryGet seedUref dictionaryItemKey)
  orFailure (isValidEntry lockBytes)
  orFailure (callerIsRecipient context lockBytes)
  let lock ← orFailure (VestInfo.unpack lockBytes)
  return (lock, seedUref, dictionaryItemKey)

/-- Push an id to the list of an account, which may not exist yet. -/
def pushId (userKey : Name) (index : UInt64) (frame : Frame) :
    Except Fault Frame :=
  match frame.hasKey userKey with
  | false => Utils.setKey userKey [index] frame
  | true => do
      let idArr ← Utils.getKey (List UInt64) userKey frame
      Utils.setKey userKey (idArr ++ [index]) frame

/-- Swap an id out of the list of an account. -/
def dropId (userKey : Name) (lockId : UInt64) (frame : Frame) :
    Except Fault Frame := do
  let idArr ← Utils.getKey (List UInt64) userKey frame
  let idx ← orFault (.failure .panic) (idArr.idxOf? lockId)
  Utils.setKey userKey (swapRemove idArr idx) frame

def updateStorage (seedUref : URef) (dictionaryItemKey : DictKey) (res : List UInt8)
    (index : UInt64) (userKey : Name) (frame : Frame) : Except Fault Frame :=
  pushId userKey index (frame.dictionaryPut seedUref dictionaryItemKey res)

def updateStorageTransferLock (seedUref : URef) (dictionaryItemKey : DictKey)
    (index : UInt64) (oldOwnerKey newOwnerKey : Name) (newLock : List UInt8)
    (frame : Frame) : Except Fault Frame := do
  let frame ← dropId oldOwnerKey index frame
  pushId newOwnerKey index (frame.dictionaryPut seedUref dictionaryItemKey newLock)

def revertIf (condition : Prop) [Decidable condition] (error : ApiError) :
    Contract Unit :=
  if condition then .fail (reverts error) else pure ()

def isPaused : Contract Bool :=
  Prog.reads (Utils.getKey Bool keyNamePaused)

/-! ## Entry points -/

def init (contHash : ContractPackageHash) : Contract Unit := do
  let isInitialized ← Prog.reads (Utils.getKey Bool keyNameInitialized)
  revertIf isInitialized .permissionDenied
  Prog.updates fun frame => do
    let frame ← frame.newDictionary keyNameDicLockInfos
    let frame ← Utils.setKey keyNameSelfContractHash contHash frame
    let frame ← Utils.setKey keyNameIndex (0 : UInt64) frame
    Utils.setKey keyNameInitialized true frame

def lock (context : Context) (tokh : ContractHash) (cliffAmount : U256)
    (cliffDurtime timeBetweenLocks : UInt64) (numberOfLocks : UInt32) : Contract Unit := do
  let paused ← isPaused
  revertIf paused (.user 14)
  let seedUref ← Prog.reads seedUref
  let timestamp := context.blocktime
  let firstUnlock ←
    Prog.ofExcept (orFailure (unwrapOrRevert (checkedAdd timestamp cliffDurtime)))
  revertIf (numberOfLocks = 0) .invalidArgument
  let schedules ← Prog.ofExcept
    (orFailure (newSchedules firstUnlock timeBetweenLocks cliffAmount numberOfLocks))
  let currentIndex ← Prog.reads (Utils.getKey UInt64 keyNameIndex)
  let dictionaryItemKey ← Prog.reads (makeLockKeyId currentIndex)
  let info : VestInfo := {
    id := currentIndex
    lockTime := timestamp
    recipient := context.caller
    tokenHash := tokh
    schedules }
  let spender ← Prog.reads selfContractHash
  Prog.request (InteractErc20.transferFrom tokh context.caller spender cliffAmount)
  Prog.updates (updateStorage seedUref dictionaryItemKey info.pack currentIndex
    context.caller.toChars)
  Prog.updates (Utils.setKey keyNameIndex (currentIndex + 1))
  Prog.record (.locked info)

def extendLock (context : Context) (lockId : UInt64) (index : UInt32)
    (newRelease : UInt64) : Contract Unit := do
  let paused ← isPaused
  revertIf paused (.user 14)
  let (lock, seedUref, dictionaryItemKey) ← Prog.reads (getLock context lockId)
  match lock.schedules[index.toNat]? with
  | none => Prog.fail (reverts .invalidArgument)
  | some schedule => do
      revertIf (schedule.release > newRelease) .none
      let schedules :=
        lock.schedules.set index.toNat { schedule with release := newRelease }
      Prog.updates fun frame =>
        .ok (frame.dictionaryPut seedUref dictionaryItemKey { lock with schedules }.pack)

def transferLock (context : Context) (lockId : UInt64) (newOwner : AccountHash) :
    Contract Unit := do
  let paused ← isPaused
  revertIf paused (.user 14)
  let (lock, seedUref, dictionaryItemKey) ← Prog.reads (getLock context lockId)
  let lock := { lock with recipient := newOwner }
  Prog.updates (updateStorageTransferLock seedUref dictionaryItemKey lock.id
    context.caller.toChars newOwner.toChars lock.pack)

/-- The end of `claim`: the lock with what is left, or nothing. -/
def storeClaimed (context : Context) (lockId : UInt64) (lock : VestInfo) (seedUref : URef)
    (dictionaryItemKey : DictKey) (frame : Frame) : Except Fault Frame :=
  let totalLocks := lock.schedules.length
  let emptyLocks := lock.schedules.countP fun s => s.amount.isZero
  if totalLocks = emptyLocks then
    dropId context.caller.toChars lockId
      (frame.dictionaryPut seedUref dictionaryItemKey VestInfo.clearEntry)
  else
    .ok (frame.dictionaryPut seedUref dictionaryItemKey lock.pack)

def claim (context : Context) (lockId : UInt64) : Contract Unit := do
  let paused ← isPaused
  revertIf paused (.user 14)
  let (lock, seedUref, dictionaryItemKey) ← Prog.reads (getLock context lockId)
  let timestamp := context.blocktime
  let (amountToTransfer, schedules) ←
    Prog.ofExcept (orFailure (orPanic (claimSchedules timestamp lock.schedules U256.zero)))
  revertIf amountToTransfer.isZero (.user 9)
  Prog.request (InteractErc20.transfer lock.tokenHash context.caller amountToTransfer)
  Prog.updates
    (storeClaimed context lockId { lock with schedules } seedUref dictionaryItemKey)
  Prog.record (.claimed {
    lockId
    payee := context.caller
    timestamp
    amount := amountToTransfer
    before := lock.schedules
    after := schedules })

def setAdmin (context : Context) (account : AccountHash) : Contract Unit := do
  let admin ← Prog.reads (Utils.getKey AccountHash keyNameAdmin)
  revertIf (context.caller ≠ admin) .invalidPurse
  Prog.updates (Utils.setKey keyNameAdmin account)

def setPauseContract (context : Context) : Contract Unit := do
  let admin ← Prog.reads (Utils.getKey AccountHash keyNameAdmin)
  revertIf (context.caller ≠ admin) .invalidPurse
  let currentState ← isPaused
  Prog.updates (Utils.setKey keyNamePaused (!currentState))

def body (context : Context) : Call → Contract Unit
  | .init contHash => init contHash
  | .lock tokh cliffAmount cliffDurtime timeBetweenLocks numberOfLocks =>
      lock context tokh cliffAmount cliffDurtime timeBetweenLocks numberOfLocks
  | .extendLock lockId index newRelease => extendLock context lockId index newRelease
  | .transferLock lockId newOwner => transferLock context lockId newOwner
  | .claim lockId => claim context lockId
  | .setAdmin account => setAdmin context account
  | .setPauseContract => setPauseContract context

/-- A call copies the named keys of the contract when it starts. -/
def program (context : Context) (entry : Call) : Prog GlobalState Fault TokenCall Event Unit :=
  (body context entry).framed GlobalState.namedKeys

/-- What the installer's `call` leaves to the contract: its named keys with the values
they start from. -/
def call (installer : Context) : GlobalState :=
  let (counterLocalKey, state) := GlobalState.empty.newURef (toValue (0 : Int32))
  let (adminKey, state) := state.newURef (toValue installer.caller)
  let (initializedKey, state) := state.newURef (toValue false)
  let (pausedKey, state) := state.newURef (toValue false)
  let state := state.putKey contractName (.uref counterLocalKey)
  let state := state.putKey keyNameAdmin (.uref adminKey)
  let state := state.putKey keyNameInitialized (.uref initializedKey)
  state.putKey keyNamePaused (.uref pausedKey)

end CasperContracts.Vesting.Named
