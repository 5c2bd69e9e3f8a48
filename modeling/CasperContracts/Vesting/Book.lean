import CasperContracts.Host.Keys
import CasperContracts.Vesting.Vest

/-!
# The vesting book

`Book` is the state behind the stored bytes and lists: the entries by id, an
entry being a lock or cleared, and the ids by account.  `Represents` relates
it to the storage, and the lemmas below say what every read and write of the
contract does to it.
-/

namespace CasperContracts.Vesting

open CasperContracts.Basis Host
open Staking (getKey)

/-! ## What the storage shows -/

theorem makeLockKeyId_of_hash {storage : Storage} {hash : ContractPackageHash}
    (stored : storage.selfContractHash = some hash) (lockId : UInt64) :
    makeLockKeyId lockId storage = .ok (numberedKey hash.keyPrefix lockId) := by
  simp only [makeLockKeyId, selfContractHash, getKey, stored]
  rfl

def storedBytes (lockId : UInt64) (storage : Storage) : Option (List UInt8) := do
  let dictionary ← storage.lockInfos
  let key ← (makeLockKeyId lockId storage).toOption
  dictionary.lookup key

/-- The lock of a live entry; a cleared one has no bytes. -/
def storedLock (lockId : UInt64) (storage : Storage) : Option VestInfo := do
  let bytes ← storedBytes lockId storage
  (VestInfo.unpack bytes).toOption

def storedIds (account : AccountHash) (storage : Storage) : List UInt64 :=
  (storage.idArrays.lookup account.toChars).getD []

/-! ## The book -/

/-- The state of an initialised contract. -/
structure Book where
  admin : AccountHash
  paused : Bool
  index : UInt64
  selfHash : ContractPackageHash
  entries : FiniteStore UInt64 (Option VestInfo)
  ids : FiniteStore AccountHash (List UInt64)

namespace Book

/-- The live lock under an id. -/
def lock (book : Book) (lockId : UInt64) : Option VestInfo :=
  (book.entries.lookup lockId).join

/-- The ids of an account; a missing list reads as empty. -/
def idsOf (book : Book) (account : AccountHash) : List UInt64 :=
  (book.ids.lookup account).getD []

def putEntry (book : Book) (lockId : UInt64) (entry : Option VestInfo) : Book :=
  { book with entries := Finmap.insert lockId entry book.entries }

def setIds (book : Book) (account : AccountHash) (idArr : List UInt64) : Book :=
  { book with ids := Finmap.insert account idArr book.ids }

def pushId (book : Book) (account : AccountHash) (lockId : UInt64) : Book :=
  book.setIds account (book.idsOf account ++ [lockId])

/-- Push an id, to a new list unless the name of the account is known. -/
def enlist (book : Book) (known : Bool) (account : AccountHash) (lockId : UInt64) : Book :=
  if known then book.pushId account lockId else book.setIds account [lockId]

def dropId (book : Book) (account : AccountHash) (idx : Nat) : Book :=
  book.setIds account (swapRemove (book.idsOf account) idx)

theorem lock_eq_some {book : Book} {lockId : UInt64} {info : VestInfo} :
    book.lock lockId = some info ↔ book.entries.lookup lockId = some (some info) :=
  Option.join_eq_some_iff

section Fields

variable (book : Book) (lockId other : UInt64) (entry : Option VestInfo)
  (account holder : AccountHash) (idArr : List UInt64) (idx : Nat)

theorem putEntry_lookup :
    (book.putEntry lockId entry).entries.lookup other =
      if other = lockId then some entry else book.entries.lookup other := by
  by_cases same : other = lockId
  · subst same
    rw [if_pos rfl]
    exact Finmap.lookup_insert book.entries
  · rw [if_neg same]
    exact Finmap.lookup_insert_of_ne book.entries same

theorem putEntry_lock :
    (book.putEntry lockId entry).lock other =
      if other = lockId then entry else book.lock other := by
  unfold lock
  rw [putEntry_lookup]
  split <;> rfl

theorem setIds_idsOf :
    (book.setIds account idArr).idsOf holder =
      if holder = account then idArr else book.idsOf holder := by
  by_cases same : holder = account
  · subst same
    simp [idsOf, setIds]
  · simp [idsOf, setIds, same, Finmap.lookup_insert_of_ne _ same]

theorem pushId_idsOf :
    (book.pushId account lockId).idsOf holder =
      if holder = account then book.idsOf holder ++ [lockId] else book.idsOf holder := by
  rw [pushId, setIds_idsOf]
  split
  · rename_i same
    rw [same]
  · rfl

/-- An unknown name matters only where a list is found under it. -/
theorem enlist_eq {known : Bool} (unlisted : known = false → book.idsOf account = []) :
    book.enlist known account lockId = book.pushId account lockId := by
  cases known with
  | true => rfl
  | false =>
      rw [pushId, unlisted rfl]
      rfl

theorem enlist_entries (known : Bool) :
    (book.enlist known account lockId).entries = book.entries := by
  cases known <;> rfl

@[simp] theorem dropId_lock : (book.dropId account idx).lock lockId =
    book.lock lockId := rfl

theorem dropId_idsOf :
    (book.dropId account idx).idsOf holder =
      if holder = account then swapRemove (book.idsOf holder) idx
      else book.idsOf holder := by
  rw [dropId, setIds_idsOf]
  split
  · rename_i same
    rw [same]
  · rfl

end Fields

end Book

def entryBytes : Option VestInfo → List UInt8
  | some info => info.pack
  | none => VestInfo.clearEntry

/-- The storage of an initialised contract holds the book. -/
structure Represents (storage : Storage) (book : Book) : Prop where
  admin : storage.admin = book.admin
  initialized : storage.initialized = true
  paused : storage.paused = book.paused
  index : storage.index = some book.index
  selfHash : storage.selfContractHash = some book.selfHash
  entries : ∃ dictionary, storage.lockInfos = some dictionary ∧
    FiniteStore.Encodes (numberedKey book.selfHash.keyPrefix) entryBytes book.entries
      dictionary
  ids : FiniteStore.Encodes AccountHash.toChars id book.ids storage.idArrays

namespace Represents

variable {storage storage' : Storage} {book : Book} {context : Context} {lockId : UInt64}
variable {account : AccountHash}

theorem selfContractHash_eq (represents : Represents storage book) :
    selfContractHash storage = .ok book.selfHash := by
  simp [selfContractHash, getKey, represents.selfHash]

theorem makeLockKeyId_eq (represents : Represents storage book) (lockId : UInt64) :
    makeLockKeyId lockId storage = .ok (numberedKey book.selfHash.keyPrefix lockId) :=
  makeLockKeyId_of_hash represents.selfHash lockId

theorem isIdValid_eq_ok (represents : Represents storage book) :
    isIdValid lockId storage = .ok () ↔ lockId ≤ book.index := by
  simp only [isIdValid, getKey, represents.index, bind_eq_ok,
    unwrapOrRevertWith_eq_ok, Option.some.injEq, exists_eq_left']
  split
  · rename_i below
    simp [UInt64.not_le.mpr below]
  · rename_i notBelow
    simpa using UInt64.not_lt.mp notBelow

theorem storedBytes_eq (represents : Represents storage book) :
    storedBytes lockId storage = (book.entries.lookup lockId).map entryBytes := by
  obtain ⟨dictionary, stored, encodes⟩ := represents.entries
  simp [storedBytes, stored, represents.makeLockKeyId_eq, Except.toOption,
    encodes.lookup (numberedKey_injective _)]

private theorem unpack_entryBytes (entry : Option VestInfo) :
    (VestInfo.unpack (entryBytes entry)).toOption = entry := by
  cases entry with
  | none => rfl
  | some info => simp [entryBytes, Except.toOption]

theorem storedLock_eq (represents : Represents storage book) :
    storedLock lockId storage = book.lock lockId := by
  simp only [storedLock, represents.storedBytes_eq, Book.lock]
  cases book.entries.lookup lockId with
  | none => rfl
  | some entry => exact unpack_entryBytes entry

theorem storedIds_eq (represents : Represents storage book) :
    storedIds account storage = book.idsOf account := by
  rw [storedIds, represents.ids.lookup AccountHash.toChars_injective, Option.map_id]
  rfl

/-- The raw comparison of `caller_is_recipient` sees the recipient of the lock. -/
theorem callerIsRecipient_eq_ok {info : VestInfo} {done : Unit} :
    callerIsRecipient context info.pack = .ok done ↔ info.recipient = context.caller := by
  have same : info.recipient = context.caller ↔
      info.recipient.value.val = context.caller.value.val := by
    constructor
    · intro equal
      rw [equal]
    · intro equal
      exact congrArg AccountHash.mk (Subtype.ext equal)
  rw [same]
  simp only [callerIsRecipient, VestInfo.unpackRecipient_pack, bind_eq_ok, Except.ok.injEq,
    exists_eq_left']
  split
  · rename_i different
    simp [different]
  · rename_i equal
    simpa using equal

/-- `get_lock` finds exactly the live locks of the caller. -/
theorem getLock_eq_ok (represents : Represents storage book) {lock : VestInfo}
    {key : DictKey} :
    getLock context lockId storage = .ok (lock, key) ↔
      lockId ≤ book.index ∧ book.lock lockId = some lock ∧
        lock.recipient = context.caller ∧ key = numberedKey book.selfHash.keyPrefix lockId := by
  obtain ⟨dictionary, stored, encodes⟩ := represents.entries
  have read := encodes.lookup (numberedKey_injective _) lockId
  cases found : book.entries.lookup lockId with
  | none =>
      simp [getLock, represents.isIdValid_eq_ok, represents.makeLockKeyId_eq, stored, read,
        found, unwrapOrRevert, Book.lock]
  | some entry =>
      cases entry with
      | none =>
          simp [getLock, represents.isIdValid_eq_ok, represents.makeLockKeyId_eq, stored,
            read, found, unwrapOrRevert, Book.lock, entryBytes, isValidEntry,
            VestInfo.clearEntry]
      | some info =>
          have nonempty : info.pack ≠ [] := info.pack_ne_nil
          simp [getLock, represents.isIdValid_eq_ok, represents.makeLockKeyId_eq, stored,
            read, found, unwrapOrRevert, Book.lock, entryBytes, isValidEntry, nonempty,
            callerIsRecipient_eq_ok]
          intro _
          constructor
          · intro given
            obtain ⟨owned, rfl, rfl⟩ := given
            exact ⟨rfl, owned, rfl⟩
          · intro given
            obtain ⟨rfl, owned, rfl⟩ := given
            exact ⟨owned, rfl, rfl⟩

theorem dictionaryPut_eq (represents : Represents storage book) (lockId : UInt64)
    (entry : Option VestInfo) :
    ∃ storage', dictionaryPut (numberedKey book.selfHash.keyPrefix lockId) (entryBytes entry)
        storage = .ok storage' ∧
      Represents storage' (book.putEntry lockId entry) := by
  obtain ⟨dictionary, stored, encodes⟩ := represents.entries
  refine ⟨_, by simp only [dictionaryPut, stored]; rfl, ?_⟩
  exact {
    admin := represents.admin
    initialized := represents.initialized
    paused := represents.paused
    index := represents.index
    selfHash := represents.selfHash
    entries := ⟨_, rfl, encodes.insert (numberedKey_injective _) lockId entry⟩
    ids := represents.ids }

theorem setIdArr (represents : Represents storage book) (account : AccountHash)
    (idArr : List UInt64) :
    Represents (setIdArr account.toChars idArr storage) (book.setIds account idArr) where
  admin := represents.admin
  initialized := represents.initialized
  paused := represents.paused
  index := represents.index
  selfHash := represents.selfHash
  entries := represents.entries
  ids := represents.ids.insert AccountHash.toChars_injective account idArr

theorem pushId (represents : Represents storage book) (account : AccountHash)
    (lockId : UInt64) :
    Represents (pushId account.toChars lockId storage) (book.pushId account lockId) := by
  have read := represents.ids.lookup AccountHash.toChars_injective account
  rw [Option.map_id] at read
  unfold Vesting.pushId Book.pushId Book.idsOf
  rw [read]
  cases book.ids.lookup account with
  | none => exact represents.setIdArr account [lockId]
  | some idArr => exact represents.setIdArr account (idArr ++ [lockId])

theorem enlist (represents : Represents storage book) (known : Bool) (account : AccountHash)
    (lockId : UInt64) :
    Represents (enlist known account.toChars lockId storage)
      (book.enlist known account lockId) := by
  cases known with
  | true => exact represents.pushId account lockId
  | false => exact represents.setIdArr account [lockId]

theorem idsOf_of_hasKey (represents : Represents storage book)
    (unknown : hasKey account.toChars storage = false) : book.idsOf account = [] := by
  have read := represents.ids.lookup AccountHash.toChars_injective account
  rw [Option.map_id, id_eq] at read
  rw [hasKey, read, Option.isSome_eq_false_iff, Option.isNone_iff_eq_none] at unknown
  rw [Book.idsOf, unknown]
  rfl

theorem hasKey_of_mem (represents : Represents storage book)
    (listed : lockId ∈ book.idsOf account) : hasKey account.toChars storage = true := by
  cases known : hasKey account.toChars storage with
  | true => rfl
  | false =>
      rw [represents.idsOf_of_hasKey known] at listed
      cases listed

theorem dropId_eq_ok (represents : Represents storage book) :
    dropId account.toChars lockId storage = .ok storage' ↔
      ∃ idx, (book.idsOf account).idxOf? lockId = some idx ∧
        storage' = Vesting.setIdArr account.toChars (swapRemove (book.idsOf account) idx)
          storage := by
  have read := represents.ids.lookup AccountHash.toChars_injective account
  rw [Option.map_id] at read
  simp only [dropId, getKey, read, bind_eq_ok, unwrapOrRevertWith_eq_ok, orPanic_eq_ok,
    pure_eq_ok, Book.idsOf]
  cases book.ids.lookup account with
  | none => simp
  | some idArr => simp [eq_comm]

theorem setIndex (represents : Represents storage book) (index : UInt64) :
    Represents { storage with index := some index } { book with index } where
  admin := represents.admin
  initialized := represents.initialized
  paused := represents.paused
  index := rfl
  selfHash := represents.selfHash
  entries := represents.entries
  ids := represents.ids

theorem setAdmin (represents : Represents storage book) (admin : AccountHash) :
    Represents { storage with admin } { book with admin } where
  admin := rfl
  initialized := represents.initialized
  paused := represents.paused
  index := represents.index
  selfHash := represents.selfHash
  entries := represents.entries
  ids := represents.ids

theorem setPaused (represents : Represents storage book) (paused : Bool) :
    Represents { storage with paused } { book with paused } where
  admin := represents.admin
  initialized := represents.initialized
  paused := rfl
  index := represents.index
  selfHash := represents.selfHash
  entries := represents.entries
  ids := represents.ids

end Represents

end CasperContracts.Vesting
