import CasperContracts.Basis.History
import CasperContracts.Vesting.Book
import CasperContracts.Vesting.Schedule

/-!
# What one call does to the vesting book

Each entry point is inverted once, for an arbitrary response of the token
contracts.  With quiet tokens the parts join into a `Change`; later proofs
split on it and never unfold an entry point.
-/

namespace CasperContracts.Vesting

open CasperContracts.Basis Host Prog
open Staking (getKey newDictionary)

abbrev VestWorld (E : Type) := World Storage E Event

structure NewLock (context : Context) (index : UInt64) (tokh : ContractHash)
    (cliffAmount : U256) (cliffDurtime timeBetweenLocks : UInt64) (numberOfLocks : UInt32)
    (info : VestInfo) : Prop where
  id : info.id = index
  lockTime : info.lockTime = context.blocktime
  recipient : info.recipient = context.caller
  tokenHash : info.tokenHash = tokh
  schedules : newSchedules (context.blocktime + cliffDurtime) timeBetweenLocks cliffAmount
    numberOfLocks = .ok info.schedules

/-- The caller may change a lock: it is live, and the caller receives it. -/
structure Access (context : Context) (book : Book) (lockId : UInt64) (lock : VestInfo) :
    Prop where
  unpaused : book.paused = false
  valid : lockId ≤ book.index
  found : book.lock lockId = some lock
  owned : lock.recipient = context.caller

/-- The lock with its schedules as a claim leaves them. -/
def VestInfo.claimed (timestamp : UInt64) (info : VestInfo) : VestInfo :=
  { info with schedules := info.schedules.map (LockSchedule.claimed timestamp) }

/-- How a claim stores what is left of a lock. -/
inductive Stored (book : Book) (caller : AccountHash) (lockId : UInt64) (left : VestInfo) :
    Book → Prop where
  | part (some : remaining left.schedules ≠ 0) :
      Stored book caller lockId left (book.putEntry lockId (.some left))
  | finished {idx : Nat} (nothing : remaining left.schedules = 0)
      (listed : (book.idsOf caller).idxOf? lockId = .some idx) :
      Stored book caller lockId left ((book.putEntry lockId none).dropId caller idx)

/-- What a successful call does to the book of an initialised contract. -/
inductive Change (context : Context) (book : Book) :
    Call → List TokenCall → List Event → Book → Prop where
  | lock {tokh : ContractHash} {cliffAmount : U256} {cliffDurtime timeBetweenLocks : UInt64}
      {numberOfLocks : UInt32} {info : VestInfo}
      (unpaused : book.paused = false)
      (new : NewLock context book.index tokh cliffAmount cliffDurtime timeBetweenLocks
        numberOfLocks info) :
      Change context book
        (.lock tokh cliffAmount cliffDurtime timeBetweenLocks numberOfLocks)
        [InteractErc20.transferFrom tokh context.caller book.selfHash cliffAmount]
        [.locked info]
        { (book.putEntry book.index (some info)).pushId context.caller book.index with
          index := book.index + 1 }
  | extendLock {lockId : UInt64} {index : UInt32} {newRelease : UInt64} {lock : VestInfo}
      {schedule : LockSchedule}
      (access : Access context book lockId lock)
      (here : lock.schedules[index.toNat]? = some schedule)
      (later : schedule.release ≤ newRelease) :
      Change context book (.extendLock lockId index newRelease) [] []
        (book.putEntry lockId (some { lock with
          schedules := lock.schedules.set index.toNat { schedule with
            release := newRelease } }))
  | transferLock {lockId : UInt64} {newOwner : AccountHash} {lock : VestInfo} {idx : Nat}
      (access : Access context book lockId lock)
      (listed : (book.idsOf context.caller).idxOf? lock.id = some idx) :
      Change context book (.transferLock lockId newOwner) [] []
        (((book.dropId context.caller idx).putEntry lockId
          (some { lock with recipient := newOwner })).pushId newOwner lock.id)
  | claim {lockId : UInt64} {lock : VestInfo} {amount : U256} {book' : Book}
      (access : Access context book lockId lock)
      (paid : amount.toNat + remaining (lock.claimed context.blocktime).schedules =
        remaining lock.schedules)
      (nonzero : 0 < amount.toNat)
      (stored : Stored book context.caller lockId (lock.claimed context.blocktime) book') :
      Change context book (.claim lockId)
        [InteractErc20.transfer lock.tokenHash context.caller amount]
        [.claimed {
          lockId
          payee := context.caller
          timestamp := context.blocktime
          amount
          before := lock.schedules
          after := (lock.claimed context.blocktime).schedules }]
        book'
  | setAdmin {account : AccountHash} (admin : context.caller = book.admin) :
      Change context book (.setAdmin account) [] [] { book with admin := account }
  | setPauseContract (admin : context.caller = book.admin) :
      Change context book .setPauseContract [] [] { book with paused := !book.paused }

/-! ## Inversion of the entry points -/

section Inversion

variable {E : Type} {respond : TokenCall → VestWorld E → VestWorld E → Prop}
variable {context : Context} {lockId : UInt64} {w w' : VestWorld E} {book : Book}

@[simp] theorem runs_revertIf {condition : Prop} [Decidable condition]
    {error : ApiError} {done : Unit} :
    Runs respond (revertIf condition error) w done w' ↔ ¬ condition ∧ w = w' := by
  unfold revertIf
  split
  · rename_i holds
    simp [Runs, holds]
  · rename_i fails
    simp [fails]

theorem runs_revertIf_bind {condition : Prop} [Decidable condition]
    {error : ApiError} {β : Type} {f : Unit → Contract β} {value : β} :
    Runs respond (revertIf condition error >>= f) w value w' ↔
      ¬ condition ∧ Runs respond (f ()) w value w' := by
  simp only [runs_unit_bind, runs_revertIf, and_assoc, exists_and_left,
    exists_eq_left']

theorem runs_ofExcept_bind {α β : Type} {result : Except Failure α} {f : α → Contract β}
    {value : β} :
    Runs respond (Prog.ofExcept result >>= f) w value w' ↔
      ∃ a, result = .ok a ∧ Runs respond (f a) w value w' := by
  simp [and_assoc]

theorem runs_isPaused_bind {β : Type} {f : Bool → Contract β} {value : β} :
    Runs respond (isPaused >>= f) w value w' ↔
      Runs respond (f w.storage.paused) w value w' := by
  rw [isPaused, runs_reads_bind]
  simp

theorem runs_knowsCaller_bind {β : Type} {f : Bool → Contract β} {value : β} :
    Runs respond (knowsCaller context >>= f) w value w' ↔
      Runs respond (f (hasKey context.caller.toChars w.storage)) w value w' := by
  rw [knowsCaller, runs_reads_bind]
  simp

/-! What these steps contribute to the failures of a program. -/

theorem fails_revertIf_bind {condition : Prop} [Decidable condition]
    {error : ApiError} {β : Type} {f : Unit → Contract β} {failure : Failure} :
    Fails respond (revertIf condition error >>= f) w failure ↔
      condition ∧ failure = .revert error ∨
        ¬ condition ∧ Fails respond (f ()) w failure := by
  unfold revertIf
  by_cases holds : condition
  · simp [holds, fails_unit_bind, Fails, Runs, eq_comm]
  · simp [holds, fails_unit_bind, fails_pure]

theorem fails_isPaused_bind {β : Type} {f : Bool → Contract β} {failure : Failure} :
    Fails respond (isPaused >>= f) w failure ↔
      Fails respond (f w.storage.paused) w failure := by
  rw [isPaused, fails_reads_bind]
  simp

theorem fails_knowsCaller_bind {β : Type} {f : Bool → Contract β} {failure : Failure} :
    Fails respond (knowsCaller context >>= f) w failure ↔
      Fails respond (f (hasKey context.caller.toChars w.storage)) w failure := by
  rw [knowsCaller, fails_reads_bind]
  simp

theorem checkedAdd_eq_some {a b c : UInt64} (sum : checkedAdd a b = some c) : c = a + b := by
  unfold checkedAdd at sum
  split at sum
  · exact (Option.some.inj sum).symm
  · cases sum

theorem runs_init {contHash : ContractPackageHash}
    (run : Runs respond (init contHash) w () w') :
    w.storage.initialized = false ∧
      w' = { w with storage := { w.storage with
        lockInfos := some ∅
        selfContractHash := some contHash
        index := some 0
        initialized := true } } := by
  simp only [init, runs_reads_bind, runs_revertIf_bind, runs_updates, bind_eq_ok,
    pure_eq_ok, Except.ok.injEq, exists_eq_left'] at run
  obtain ⟨fresh, storage, ⟨lockInfos, created, rfl⟩, rfl⟩ := run
  refine ⟨by simpa using fresh, ?_⟩
  cases stored : w.storage.lockInfos with
  | some dictionary => simp [stored, newDictionary] at created
  | none =>
      simp only [stored, newDictionary, Except.ok.injEq] at created
      rw [← created]

theorem runs_lock {tokh : ContractHash} {cliffAmount : U256}
    {cliffDurtime timeBetweenLocks : UInt64} {numberOfLocks : UInt32}
    (represents : Represents w.storage book)
    (run : Runs respond (lock context tokh cliffAmount cliffDurtime timeBetweenLocks
      numberOfLocks) w () w') :
    ∃ info u storage', book.paused = false ∧
      NewLock context book.index tokh cliffAmount cliffDurtime timeBetweenLocks
        numberOfLocks info ∧
      respond (InteractErc20.transferFrom tokh context.caller book.selfHash cliffAmount)
        w u ∧
      updateStorage (hasKey context.caller.toChars w.storage)
        (numberedKey book.selfHash.keyPrefix book.index) info.pack book.index
        context.caller.toChars u.storage = .ok storage' ∧
      w' = {
        storage := { storage' with index := some (book.index + 1) }
        outside := u.outside
        log := u.log ++ [.locked info] } := by
  simp only [lock, runs_knowsCaller_bind, runs_isPaused_bind, runs_revertIf_bind, runs_reads_bind,
    runs_ofExcept_bind, runs_request_bind, runs_updates_bind, runs_record,
    represents.index, represents.makeLockKeyId_eq, represents.selfContractHash_eq,
    represents.paused, getKey, unwrapOrRevert, unwrapOrRevertWith_eq_ok, Option.some.injEq,
    Except.ok.injEq, exists_eq_left'] at run
  obtain ⟨unpaused, dictionary, -, firstUnlock, first, -, schedules, loop, u, answered,
    storage', written, rfl⟩ := run
  rw [checkedAdd_eq_some first] at loop
  exact ⟨_, u, storage', by simpa using unpaused, ⟨rfl, rfl, rfl, rfl, loop⟩, answered,
    written, rfl⟩

private theorem access_of_getLock {lock : VestInfo} {key : DictKey}
    (represents : Represents w.storage book) (unpaused : ¬ book.paused = true)
    (read : getLock context lockId w.storage = .ok (lock, key)) :
    Access context book lockId lock ∧ key = numberedKey book.selfHash.keyPrefix lockId := by
  obtain ⟨valid, found, owned, sameKey⟩ := represents.getLock_eq_ok.mp read
  exact ⟨⟨by simpa using unpaused, valid, found, owned⟩, sameKey⟩

theorem runs_extendLock {index : UInt32} {newRelease : UInt64}
    (represents : Represents w.storage book)
    (run : Runs respond (extendLock context lockId index newRelease) w () w') :
    ∃ lock schedule storage', Access context book lockId lock ∧
      lock.schedules[index.toNat]? = some schedule ∧ schedule.release ≤ newRelease ∧
      dictionaryPut (numberedKey book.selfHash.keyPrefix lockId)
        { lock with
          schedules := lock.schedules.set index.toNat { schedule with
            release := newRelease } }.pack w.storage = .ok storage' ∧
      w' = { w with storage := storage' } := by
  simp only [extendLock, runs_isPaused_bind, runs_revertIf_bind, runs_reads_bind,
    represents.paused] at run
  obtain ⟨unpaused, ⟨lock, key⟩, read, rest⟩ := run
  obtain ⟨access, rfl⟩ := access_of_getLock represents unpaused read
  cases here : lock.schedules[index.toNat]? with
  | none => simp [here] at rest
  | some schedule =>
      simp only [here, runs_revertIf_bind, runs_updates] at rest
      obtain ⟨later, storage', written, rfl⟩ := rest
      exact ⟨lock, schedule, storage', access, here, UInt64.not_lt.mp later, written, rfl⟩

theorem runs_transferLock {newOwner : AccountHash} (represents : Represents w.storage book)
    (run : Runs respond (transferLock context lockId newOwner) w () w') :
    ∃ lock storage', Access context book lockId lock ∧
      updateStorageTransferLock (numberedKey book.selfHash.keyPrefix lockId) lock.id
        context.caller.toChars newOwner.toChars { lock with recipient := newOwner }.pack
        w.storage = .ok storage' ∧
      w' = { w with storage := storage' } := by
  simp only [transferLock, runs_isPaused_bind, runs_revertIf_bind, runs_reads_bind,
    runs_updates, represents.paused] at run
  obtain ⟨unpaused, ⟨lock, key⟩, read, storage', written, rfl⟩ := run
  obtain ⟨access, rfl⟩ := access_of_getLock represents unpaused read
  exact ⟨lock, storage', access, written, rfl⟩

theorem runs_claim (represents : Represents w.storage book)
    (run : Runs respond (claim context lockId) w () w') :
    ∃ lock amount u storage', Access context book lockId lock ∧
      amount.toNat + remaining (lock.claimed context.blocktime).schedules =
        remaining lock.schedules ∧
      0 < amount.toNat ∧
      respond (InteractErc20.transfer lock.tokenHash context.caller amount) w u ∧
      storeClaimed context (hasKey context.caller.toChars w.storage) lockId
        (lock.claimed context.blocktime) (numberedKey book.selfHash.keyPrefix lockId)
        u.storage = .ok storage' ∧
      w' = {
        storage := storage'
        outside := u.outside
        log := u.log ++ [.claimed {
          lockId
          payee := context.caller
          timestamp := context.blocktime
          amount
          before := lock.schedules
          after := (lock.claimed context.blocktime).schedules }] } := by
  simp only [claim, runs_knowsCaller_bind, runs_isPaused_bind, runs_revertIf_bind,
    runs_reads_bind, runs_ofExcept_bind, runs_request_bind, runs_updates_bind, runs_record,
    orPanic_eq_ok, represents.paused] at run
  obtain ⟨unpaused, ⟨lock, key⟩, read, ⟨amount, schedules⟩, loop, nonzero, u, answered,
    storage', written, rfl⟩ := run
  obtain ⟨access, rfl⟩ := access_of_getLock represents unpaused read
  obtain ⟨rfl, sums⟩ := claimSchedules_eq_some loop
  rw [U256.toNat_zero, Nat.zero_add] at sums
  refine ⟨lock, amount, u, storage', access, sums, ?_, answered, written, rfl⟩
  simpa [Nat.pos_iff_ne_zero] using nonzero

theorem runs_setAdmin {account : AccountHash} (represents : Represents w.storage book)
    (run : Runs respond (setAdmin context account) w () w') :
    context.caller = book.admin ∧ w' = { w with storage := { w.storage with
      admin := account } } := by
  simp only [setAdmin, runs_reads_bind, runs_revertIf_bind, runs_updates, represents.admin,
    Except.ok.injEq, exists_eq_left', ne_eq, not_not] at run
  exact run

theorem runs_setPauseContract (represents : Represents w.storage book)
    (run : Runs respond (setPauseContract context) w () w') :
    context.caller = book.admin ∧ w' = { w with storage := { w.storage with
      paused := !book.paused } } := by
  simp only [setPauseContract, runs_reads_bind, runs_revertIf_bind, runs_isPaused_bind,
    runs_updates, represents.paused, Except.ok.injEq, exists_eq_left', ne_eq,
    not_not] at run
  obtain ⟨admin, rfl⟩ := run
  exact ⟨admin.trans represents.admin, rfl⟩

end Inversion

/-! ## Writes on the book -/

namespace Represents

variable {storage storage' : Storage} {book : Book} {context : Context} {lockId : UInt64}
variable {account newOwner : AccountHash} {info : VestInfo}

theorem updateStorage_eq_ok (represents : Represents storage book) {known : Bool}
    (written : updateStorage known (numberedKey book.selfHash.keyPrefix lockId) info.pack
      lockId account.toChars storage = .ok storage') :
    Represents storage' ((book.putEntry lockId (some info)).enlist known account lockId) := by
  obtain ⟨after, put, represents'⟩ := represents.dictionaryPut_eq lockId (some info)
  change dictionaryPut _ info.pack storage = .ok after at put
  simp only [updateStorage, put, bind_eq_ok, pure_eq_ok, Except.ok.injEq,
    exists_eq_left'] at written
  rw [← written]
  exact represents'.enlist known account lockId

/-- A call that goes on from where it started pushes the id to the list there is. -/
theorem updateStorage_quietly (represents : Represents storage book)
    (written : updateStorage (hasKey account.toChars storage)
      (numberedKey book.selfHash.keyPrefix lockId) info.pack lockId account.toChars storage =
        .ok storage') :
    Represents storage' ((book.putEntry lockId (some info)).pushId account lockId) := by
  have represents' := represents.updateStorage_eq_ok written
  rw [Book.enlist_eq] at represents'
  · exact represents'
  · exact fun unknown => represents.idsOf_of_hasKey unknown

theorem dropId_represents (represents : Represents storage book)
    (written : dropId account.toChars lockId storage = .ok storage') :
    ∃ idx, (book.idsOf account).idxOf? lockId = some idx ∧
      Represents storage' (book.dropId account idx) := by
  obtain ⟨idx, found, rfl⟩ := represents.dropId_eq_ok.mp written
  exact ⟨idx, found, represents.setIdArr account _⟩

theorem updateStorageTransferLock_eq_ok (represents : Represents storage book) {id : UInt64}
    (written : updateStorageTransferLock (numberedKey book.selfHash.keyPrefix lockId) id
      account.toChars newOwner.toChars info.pack storage = .ok storage') :
    ∃ idx, (book.idsOf account).idxOf? id = some idx ∧
      Represents storage'
        (((book.dropId account idx).putEntry lockId (some info)).pushId newOwner id) := by
  simp only [updateStorageTransferLock, bind_eq_ok, pure_eq_ok] at written
  obtain ⟨dropped, drops, stored, puts, rfl⟩ := written
  obtain ⟨idx, found, representsDropped⟩ := represents.dropId_represents drops
  obtain ⟨after, put, representsStored⟩ :=
    representsDropped.dictionaryPut_eq lockId (some info)
  cases puts.symm.trans put
  exact ⟨idx, found, representsStored.pushId newOwner id⟩

/-- A transfer can be stored when the old owner's list has the id. -/
theorem exists_updateStorageTransferLock (represents : Represents storage book)
    {id : UInt64} (listed : id ∈ book.idsOf account) (newOwner : AccountHash)
    (info : VestInfo) :
    ∃ storage', updateStorageTransferLock (numberedKey book.selfHash.keyPrefix lockId) id
      account.toChars newOwner.toChars info.pack storage = .ok storage' := by
  obtain ⟨idx, found⟩ := exists_idxOf? listed
  have drops := represents.dropId_eq_ok.mpr ⟨idx, found, rfl⟩
  obtain ⟨stored, puts, -⟩ :=
    (represents.setIdArr account (swapRemove (book.idsOf account) idx)).dictionaryPut_eq
      lockId (some info)
  have putPack : dictionaryPut (numberedKey book.selfHash.keyPrefix lockId) info.pack
    (Vesting.setIdArr account.toChars (swapRemove (book.idsOf account) idx) storage) =
      .ok stored := puts
  exact ⟨Vesting.pushId newOwner.toChars id stored, by
    simp [updateStorageTransferLock, drops, putPack]⟩

theorem storeClaimed_eq_ok (represents : Represents storage book) {known : Bool}
    (written : storeClaimed context known lockId info
      (numberedKey book.selfHash.keyPrefix lockId) storage = .ok storage') :
    ∃ book', Stored book context.caller lockId info book' ∧ Represents storage' book' := by
  simp only [storeClaimed, length_eq_countP_iff] at written
  split at written
  · rename_i nothing
    obtain ⟨cleared, puts, drops⟩ := bind_eq_ok.mp written
    obtain ⟨after, put, representsCleared⟩ := represents.dictionaryPut_eq lockId none
    cases puts.symm.trans put
    cases known with
    | false => cases drops
    | true =>
        obtain ⟨idx, found, represents'⟩ := representsCleared.dropId_represents drops
        exact ⟨_, .finished nothing found, represents'⟩
  · rename_i some
    obtain ⟨after, put, represents'⟩ := represents.dictionaryPut_eq lockId (.some info)
    cases written.symm.trans put
    exact ⟨_, .part some, represents'⟩

theorem exists_storeClaimed (represents : Represents storage book)
    (listed : lockId ∈ book.idsOf context.caller) (info : VestInfo) :
    ∃ storage', storeClaimed context (hasKey context.caller.toChars storage) lockId info
      (numberedKey book.selfHash.keyPrefix lockId) storage = .ok storage' := by
  rw [represents.hasKey_of_mem listed]
  simp only [storeClaimed, length_eq_countP_iff, if_true]
  split
  · obtain ⟨cleared, puts, representsCleared⟩ := represents.dictionaryPut_eq lockId none
    obtain ⟨idx, found⟩ := exists_idxOf? listed
    have drops := representsCleared.dropId_eq_ok.mpr ⟨idx, found, rfl⟩
    exact ⟨_, bind_eq_ok.mpr ⟨cleared, puts, drops⟩⟩
  · obtain ⟨after, put, -⟩ := represents.dictionaryPut_eq lockId (.some info)
    exact ⟨after, put⟩

end Represents

/-! ## Quiet tokens -/

section QuietTokens

variable {E : Type} {tokens : TokenCall → E → E → Prop}
variable {context : Context} {call : Call} {w w' : VestWorld E} {book : Book}

/-- Every successful call of an initialised contract among quiet tokens is a
change of its book. -/
theorem change_of_runs (represents : Represents w.storage book)
    (run : Runs (Quiet tokens) (call.program context) w () w') :
    ∃ book' requests events, Change context book call requests events book' ∧
      Represents w'.storage book' ∧ w'.log = w.log ++ events ∧
      Answers tokens requests w.outside w'.outside := by
  cases call with
  | init contHash =>
      have fresh := (runs_init run).1
      rw [represents.initialized] at fresh
      cases fresh
  | lock tokh cliffAmount cliffDurtime timeBetweenLocks numberOfLocks =>
      obtain ⟨info, u, storage', unpaused, new, ⟨e, answered, rfl⟩, written, rfl⟩ :=
        runs_lock represents run
      exact ⟨_, _, _, .lock unpaused new,
        (represents.updateStorage_quietly written).setIndex _, rfl,
        answers_singleton.mpr answered⟩
  | extendLock lockId index newRelease =>
      obtain ⟨lock, schedule, storage', access, here, later, written, rfl⟩ :=
        runs_extendLock represents run
      obtain ⟨after, put, represents'⟩ := represents.dictionaryPut_eq lockId (some { lock with
        schedules := lock.schedules.set index.toNat { schedule with release := newRelease } })
      cases written.symm.trans put
      exact ⟨_, _, _, .extendLock access here later, represents', by simp, .nil _⟩
  | transferLock lockId newOwner =>
      obtain ⟨lock, storage', access, written, rfl⟩ := runs_transferLock represents run
      obtain ⟨idx, listed, represents'⟩ := represents.updateStorageTransferLock_eq_ok written
      exact ⟨_, _, _, .transferLock access listed, represents', by simp, .nil _⟩
  | claim lockId =>
      obtain ⟨lock, amount, u, storage', access, paid, nonzero, ⟨e, answered, rfl⟩, written,
        rfl⟩ := runs_claim represents run
      obtain ⟨book', stored, represents'⟩ := represents.storeClaimed_eq_ok written
      exact ⟨_, _, _, .claim access paid nonzero stored, represents', rfl,
        answers_singleton.mpr answered⟩
  | setAdmin account =>
      obtain ⟨admin, rfl⟩ := runs_setAdmin represents run
      exact ⟨_, _, _, .setAdmin admin, represents.setAdmin account, by simp, .nil _⟩
  | setPauseContract =>
      obtain ⟨admin, rfl⟩ := runs_setPauseContract represents run
      exact ⟨_, _, _, .setPauseContract admin, represents.setPaused _, by simp, .nil _⟩

end QuietTokens

end CasperContracts.Vesting
