import CasperContracts.Host.Keys
import CasperContracts.Staking.Codec
import CasperContracts.Staking.Stake

/-!
# The staking book

The contract keeps its records as bytes under string keys.  `Book` is the
state those bytes stand for: pools by id, user records by key prefix and pool
id.  `Represents` relates the two, and the lemmas below say what every read
and write of the contract does to the book.
-/

namespace CasperContracts.Staking

open CasperContracts.Basis Host

/-- The record an account reads and writes on a pool. -/
def recordKey (account : AccountHash) (poolId : UInt64) : RecordKey :=
  (account.keyPrefix, poolId)

theorem makeUserKeyById_eq (context : Context) (poolId : UInt64) :
    makeUserKeyById context poolId = (recordKey context.caller poolId).encode :=
  rfl

theorem selfContractHash_eq_ok {storage : Storage} {hash : ContractPackageHash} :
    selfContractHash storage = .ok hash ↔ storage.selfContractHash = some hash :=
  unwrapOrRevertWith_eq_ok

theorem makePoolKeyId_of_hash {storage : Storage} {hash : ContractPackageHash}
    (stored : storage.selfContractHash = some hash) (poolId : UInt64) :
    makePoolKeyId poolId storage = .ok (numberedKey hash.keyPrefix poolId) := by
  simp only [makePoolKeyId, selfContractHash, getKey, stored]
  rfl

/-- The state of an initialised contract. -/
structure Book where
  admin : AccountHash
  index : UInt64
  selfHash : ContractPackageHash
  pools : FiniteStore UInt64 StakePool
  users : FiniteStore RecordKey UserInfo

namespace Book

def pool (book : Book) (poolId : UInt64) : Option StakePool :=
  book.pools.lookup poolId

/-- The record under a key; a missing record reads as empty. -/
def user (book : Book) (key : RecordKey) : UserInfo :=
  (book.users.lookup key).getD UserInfo.default

def putPool (book : Book) (poolId : UInt64) (pool : StakePool) : Book :=
  { book with pools := Finmap.insert poolId pool book.pools }

def putUser (book : Book) (key : RecordKey) (user : UserInfo) : Book :=
  { book with users := Finmap.insert key user book.users }

section Fields

variable (book : Book) (poolId other : UInt64) (record : StakePool)
  (key : RecordKey) (info : UserInfo)

@[simp] theorem putPool_user :
    (book.putPool poolId record).user key = book.user key := rfl

@[simp] theorem putUser_pool :
    (book.putUser key info).pool poolId = book.pool poolId := rfl

theorem putPool_pool :
    (book.putPool poolId record).pool other =
      if other = poolId then some record else book.pool other := by
  by_cases same : other = poolId
  · subst same
    rw [if_pos rfl]
    exact Finmap.lookup_insert book.pools
  · rw [if_neg same]
    exact Finmap.lookup_insert_of_ne book.pools same

@[simp] theorem putPool_pool_same :
    (book.putPool poolId record).pool poolId = some record := by
  simp [putPool_pool]

theorem putUser_user (otherKey : RecordKey) :
    (book.putUser key info).user otherKey =
      if otherKey = key then info else book.user otherKey := by
  by_cases same : otherKey = key
  · subst same
    simp [user, putUser]
  · simp [user, putUser, same, Finmap.lookup_insert_of_ne _ same]

end Fields

end Book

/-- The storage of an initialised contract holds the book. -/
structure Represents (storage : Storage) (book : Book) : Prop where
  admin : storage.admin = book.admin
  initialized : storage.initialized = true
  index : storage.index = some book.index
  selfHash : storage.selfContractHash = some book.selfHash
  pools : ∃ dictionary, storage.stakeInfos = some dictionary ∧
    FiniteStore.Encodes (numberedKey book.selfHash.keyPrefix) StakePool.pack
      book.pools dictionary
  users : ∃ dictionary, storage.userInfos = some dictionary ∧
    FiniteStore.Encodes RecordKey.encode UserInfo.pack book.users dictionary

namespace Represents

variable {storage : Storage} {book : Book}

theorem selfContractHash_eq (represents : Represents storage book) :
    selfContractHash storage = .ok book.selfHash :=
  selfContractHash_eq_ok.mpr represents.selfHash

theorem makePoolKeyId_eq (represents : Represents storage book) (poolId : UInt64) :
    makePoolKeyId poolId storage =
      .ok (numberedKey book.selfHash.keyPrefix poolId) :=
  makePoolKeyId_of_hash represents.selfHash poolId

theorem isIdValid_eq_ok (represents : Represents storage book) {poolId : UInt64} :
    isIdValid poolId storage = .ok () ↔ poolId ≤ book.index := by
  simp only [isIdValid, getKey, represents.index, bind_eq_ok,
    unwrapOrRevertWith_eq_ok, Option.some.injEq, exists_eq_left']
  split
  · rename_i below
    simp [UInt64.not_le.mpr below]
  · rename_i notBelow
    simpa using UInt64.not_lt.mp notBelow

/-- `get_pool` finds exactly the pools of the book, up to the index. -/
theorem getPool_eq_ok (represents : Represents storage book) {poolId : UInt64}
    {pool : StakePool} :
    getPool poolId storage = .ok pool ↔
      poolId ≤ book.index ∧ book.pool poolId = some pool := by
  obtain ⟨dictionary, stored, encodes⟩ := represents.pools
  have read := encodes.lookup (numberedKey_injective _) poolId
  simp [getPool, represents.isIdValid_eq_ok, represents.makePoolKeyId_eq, stored,
    read, Book.pool]

theorem getUserInfoForPool_eq_ok (represents : Represents storage book)
    {context : Context} {poolId : UInt64} {user : UserInfo} :
    getUserInfoForPool context poolId storage = .ok user ↔
      poolId ≤ book.index ∧ book.user (recordKey context.caller poolId) = user := by
  obtain ⟨dictionary, stored, encodes⟩ := represents.users
  have read := encodes.lookup RecordKey.encode_injective
    (recordKey context.caller poolId)
  cases found : book.users.lookup (recordKey context.caller poolId) with
  | none =>
      simp [getUserInfoForPool, stored, makeUserKeyById_eq, read, found, Book.user,
        represents.isIdValid_eq_ok, unwrapOrRevert]
  | some record =>
      simp [getUserInfoForPool, stored, makeUserKeyById_eq, read, found, Book.user,
        represents.isIdValid_eq_ok, unwrapOrRevert]

theorem getUserInfoForPool_eq (represents : Represents storage book) (context : Context)
    (poolId : UInt64) :
    getUserInfoForPool context poolId storage =
      if poolId ≤ book.index then .ok (book.user (recordKey context.caller poolId))
      else .error (.revert .invalidArgument) := by
  by_cases valid : poolId ≤ book.index
  · rw [if_pos valid]
    exact represents.getUserInfoForPool_eq_ok.mpr ⟨valid, rfl⟩
  · rw [if_neg valid]
    have refused : isIdValid poolId storage = .error (.revert .invalidArgument) := by
      simp only [isIdValid, getKey, represents.index]
      exact if_pos (UInt64.not_le.mp valid)
    rw [getUserInfoForPool, refused]
    rfl

theorem updateStorage_eq_ok (represents : Represents storage book)
    {context : Context} {pool : StakePool} {user : UserInfo} {poolId : UInt64}
    {storage' : Storage}
    (success : updateStorage context pool user poolId storage = .ok storage') :
    Represents storage'
      ((book.putPool poolId pool).putUser (recordKey context.caller poolId) user) := by
  obtain ⟨poolDictionary, storedPools, encodesPools⟩ := represents.pools
  obtain ⟨userDictionary, storedUsers, encodesUsers⟩ := represents.users
  simp [updateStorage, represents.makePoolKeyId_eq, storedPools, storedUsers,
    makeUserKeyById_eq] at success
  obtain ⟨-, rfl⟩ := success
  exact {
    admin := represents.admin
    initialized := represents.initialized
    index := represents.index
    selfHash := represents.selfHash
    pools := ⟨_, rfl, encodesPools.insert (numberedKey_injective _) poolId pool⟩
    users := ⟨_, rfl, encodesUsers.insert RecordKey.encode_injective _ user⟩ }

theorem exists_updateStorage (represents : Represents storage book) (context : Context)
    (pool : StakePool) (user : UserInfo) {poolId : UInt64} (valid : poolId ≤ book.index) :
    ∃ storage', updateStorage context pool user poolId storage = .ok storage' := by
  obtain ⟨poolDictionary, storedPools, -⟩ := represents.pools
  obtain ⟨userDictionary, storedUsers, -⟩ := represents.users
  simp [updateStorage, represents.makePoolKeyId_eq, storedPools, storedUsers,
    represents.isIdValid_eq_ok, valid]

theorem putPool_eq_ok (represents : Represents storage book) {missing : ApiError}
    {poolId : UInt64} {pool : StakePool} {storage' : Storage}
    (success : putPool missing poolId pool storage = .ok storage') :
    Represents storage' (book.putPool poolId pool) := by
  obtain ⟨dictionary, stored, encodes⟩ := represents.pools
  simp [putPool, represents.makePoolKeyId_eq, stored] at success
  subst success
  exact {
    admin := represents.admin
    initialized := represents.initialized
    index := represents.index
    selfHash := represents.selfHash
    pools := ⟨_, rfl, encodes.insert (numberedKey_injective _) poolId pool⟩
    users := represents.users }

theorem setIndex (represents : Represents storage book) (index : UInt64) :
    Represents { storage with index := some index } { book with index } where
  admin := represents.admin
  initialized := represents.initialized
  index := rfl
  selfHash := represents.selfHash
  pools := represents.pools
  users := represents.users

theorem setAdmin (represents : Represents storage book) (admin : AccountHash) :
    Represents { storage with admin } { book with admin } where
  admin := rfl
  initialized := represents.initialized
  index := represents.index
  selfHash := represents.selfHash
  pools := represents.pools
  users := represents.users

end Represents

end CasperContracts.Staking
