import CasperContracts.Staking.Reentrancy

/-!
# The records of other accounts

A call writes no record but those of its caller, and a record belongs to the
accounts whose printed hashes begin with the same fifteen characters.  So two
accounts are isolated from each other, however the tokens call back, unless
they share these characters: then a deposit or a withdrawal of the one changes
what the other reads as its own stake.
-/

namespace CasperContracts.Staking

open CasperContracts.Basis Host Prog

/-! ## What a call leaves alone, whatever the tokens do -/

/-- Records under other prefixes stay as they are, and the index moves by at most
the number of pools created. -/
structure Spares (preKey : KeyPrefix) (book : Book) (log : List Event)
    (book' : Book) (log' : List Event) : Prop where
  selfHash : book'.selfHash = book.selfHash
  users : ∀ key : RecordKey, key.1 ≠ preKey → book'.user key = book.user key
  index : ∃ more count, log' = log ++ more ∧ count ≤ (poolsCreated more).length ∧
    book'.index = book.index + .ofNat count

def Counted (book : Book) (log : List Event) : Prop :=
  ∃ count ≤ (poolsCreated log).length, book.index = .ofNat count

section Steps

variable {preKey : KeyPrefix} {book book' book'' : Book}
  {log log' log'' events : List Event}

theorem Spares.refl : Spares preKey book log book log where
  selfHash := rfl
  users := fun _ _ => rfl
  index := ⟨[], 0, by simp, le_refl _, by simp⟩

theorem Spares.trans (first : Spares preKey book log book' log')
    (second : Spares preKey book' log' book'' log'') :
    Spares preKey book log book'' log'' where
  selfHash := second.selfHash.trans first.selfHash
  users := fun key other => (second.users key other).trans (first.users key other)
  index := by
    obtain ⟨more, count, rfl, le, index⟩ := first.index
    obtain ⟨more', count', rfl, le', index'⟩ := second.index
    refine ⟨more ++ more', count + count', List.append_assoc _ _ _, ?_, ?_⟩
    · rw [poolsCreated_append, List.length_append]
      exact Nat.add_le_add le le'
    · rw [index', index, UInt64.ofNat_add, UInt64.add_assoc]

/-- A change of the book that moves neither the index nor the records of others. -/
theorem Spares.of_index (selfHash : book'.selfHash = book.selfHash)
    (index : book'.index = book.index)
    (users : ∀ key : RecordKey, key.1 ≠ preKey → book'.user key = book.user key) :
    Spares preKey book log book' (log ++ events) where
  selfHash := selfHash
  users := users
  index := ⟨events, 0, rfl, Nat.zero_le _, by simp [index]⟩

theorem Spares.write {context : Context} {pool : StakePool} {user : UserInfo}
    {poolId : UInt64} : Spares context.caller.keyPrefix book log
      ((book.putPool poolId pool).putUser (recordKey context.caller poolId) user)
      (log ++ events) := by
  refine .of_index rfl rfl fun key other => ?_
  have apart : key ≠ recordKey context.caller poolId :=
    fun same => other (congrArg Prod.fst same)
  rw [Book.putUser_user, if_neg apart, Book.putPool_user]

theorem Counted.spared (counted : Counted book log)
    (spares : Spares preKey book log book' log') : Counted book' log' := by
  obtain ⟨count, le, index⟩ := counted
  obtain ⟨more, added, rfl, le', index'⟩ := spares.index
  refine ⟨count + added, ?_, ?_⟩
  · rw [poolsCreated_append, List.length_append]
    exact Nat.add_le_add le le'
  · rw [index', index, UInt64.ofNat_add]

/-- With few pools created the index does not go back. -/
theorem Spares.index_le (spares : Spares preKey book log book' log')
    (counted : Counted book log) (few : (poolsCreated log').length < 2 ^ 64) :
    book.index ≤ book'.index := by
  obtain ⟨count, le, index⟩ := counted
  obtain ⟨more, added, rfl, le', index'⟩ := spares.index
  rw [poolsCreated_append, List.length_append] at few
  have fits : count + added < UInt64.size := by
    change _ < 2 ^ 64
    omega
  rw [index', index, ← UInt64.ofNat_add, UInt64.le_iff_toNat_le,
    UInt64.toNat_ofNat_of_lt' (by omega), UInt64.toNat_ofNat_of_lt' fits]
  exact Nat.le_add_right _ _

end Steps

section Entries

variable {E : Type} {context : Context} {stack : List Call} {entry : Call}
variable {respond : TokenCall → StakeWorld E → StakeWorld E → Prop}
variable {w w' : StakeWorld E} {book : Book} {poolId : UInt64}

/-- What requests do that spare the records of others. -/
def Sparing (context : Context) (stack : List Call) (w w' : StakeWorld E) : Prop :=
  Kept Represents Counted (fun _ => Spares context.caller.keyPrefix) stack w w'

private theorem Sparing.after_events {events : List Event} {u v : StakeWorld E}
    (sparing : Sparing context stack u v) (log : u.log = w.log ++ events)
    (represents : Represents u.storage book) (counted : Counted book w.log) :
    ∃ book', Represents v.storage book' ∧ Counted book' v.log ∧
      Spares context.caller.keyPrefix book w.log book' v.log := by
  have unchanged : Spares context.caller.keyPrefix book w.log book u.log :=
    log ▸ .of_index rfl rfl fun _ _ => rfl
  obtain ⟨book', represents', counted', spares⟩ :=
    sparing book represents (counted.spared unchanged)
  exact ⟨book', represents', counted', unchanged.trans spares⟩

private theorem SettlePhases.spares
    (answers : ∀ c v v', respond c v v' → Sparing context (entry :: stack) v v')
    (represents : Represents w.storage book) (counted : Counted book w.log)
    (phases : SettlePhases respond context book poolId entry w w') :
    ∃ book', Represents w'.storage book' ∧
      Spares context.caller.keyPrefix book w.log book' w'.log := by
  cases phases with
  | @intro pool accrued credit user' totalStaked requests events u storage' valid found
      accrual settled debt staked chain written after =>
      subst after
      have asked : Sparing context (entry :: stack)
          { w with log := w.log ++ creditEvents poolId credit } u :=
        .of_chain .refl .trans answers chain
      obtain ⟨bookU, representsU, -, spares⟩ := asked.after_events rfl represents counted
      exact ⟨_, representsU.updateStorage_eq_ok written, spares.trans .write⟩

private theorem spares_of_addPool {stakingToken rewardToken : ContractHash}
    {startTime endTime precision : UInt64} {totalReward : U256}
    (answers : ∀ c v v', respond c v v' → Sparing context (entry :: stack) v v')
    (represents : Represents w.storage book) (counted : Counted book w.log)
    (run : Runs respond (addPool context stakingToken rewardToken startTime endTime
      precision totalReward) w () w') :
    ∃ book', Represents w'.storage book' ∧
      Spares context.caller.keyPrefix book w.log book' w'.log := by
  obtain ⟨pool, storage, u, new, -, written, answered, rfl⟩ := runs_addPool represents run
  obtain ⟨bookU, representsU, -, spares⟩ :=
    answers _ _ _ answered _ (represents.putPool_eq_ok written) counted
  refine ⟨_, representsU.setIndex _, ?_⟩
  obtain ⟨more, -, log, -, -⟩ := spares.index
  exact {
    selfHash := spares.selfHash
    users := spares.users
    index := by
      refine ⟨more ++ [.poolAdded pool], 1, ?_, ?_, rfl⟩
      · rw [← List.append_assoc, ← log]
      · rw [poolsCreated_append, List.length_append]
        exact Nat.le_add_left _ _ }

private theorem spares_of_entry
    (answers : ∀ c v v', respond c v v' → Sparing context (entry :: stack) v v')
    (represents : Represents w.storage book) (counted : Counted book w.log)
    (run : Runs respond (entry.program context) w () w') :
    ∃ book', Represents w'.storage book' ∧
      Spares context.caller.keyPrefix book w.log book' w'.log := by
  cases entry with
  | init contHash =>
      have fresh := (runs_init run).1
      rw [represents.initialized] at fresh
      cases fresh
  | addPool => exact spares_of_addPool answers represents counted run
  | deposit amount poolId =>
      have keepsSelf : ∀ c credit v,
          respond c { w with log := w.log ++ creditEvents poolId credit } v →
          v.storage.selfContractHash = w.storage.selfContractHash := by
        intro c credit v answered
        obtain ⟨bookV, representsV, -, spares⟩ :=
          (answers _ _ _ answered).after_events rfl represents counted
        rw [representsV.selfHash, spares.selfHash, represents.selfHash]
      exact (runs_deposit keepsSelf represents run).spares answers represents counted
  | withdraw amount poolId =>
      exact (runs_withdraw represents run).spares answers represents counted
  | emergencyWithdraw poolId =>
      obtain ⟨pool, amount, totalStaked, u, storage', -, -, -, -, -, answered, written,
        rfl⟩ := runs_emergencyWithdraw represents run
      obtain ⟨bookU, representsU, -, spares⟩ :=
        answers _ _ _ answered book represents counted
      exact ⟨_, representsU.updateStorage_eq_ok written, spares.trans .write⟩
  | stopReward poolId =>
      obtain ⟨pool, accrued, credit, refund, u, storage', -, -, -, -, -, -, answered,
        written, rfl⟩ := runs_stopReward represents run
      obtain ⟨bookU, representsU, -, spares⟩ :=
        (answers _ _ _ answered).after_events rfl represents counted
      exact ⟨_, representsU.putPool_eq_ok written,
        spares.trans (.of_index rfl rfl fun _ _ => rfl)⟩
  | saveMe tokenHash amount =>
      obtain ⟨-, answered⟩ := runs_saveMe represents run
      obtain ⟨bookU, representsU, -, spares⟩ :=
        answers _ _ _ answered book represents counted
      exact ⟨bookU, representsU, spares⟩
  | setAdmin account =>
      obtain ⟨-, rfl⟩ := runs_setAdmin represents run
      refine ⟨_, represents.setAdmin account, ?_⟩
      exact ⟨rfl, fun _ _ => rfl, [], 0, by simp, le_refl _, by simp⟩

/-- Whatever the tokens call back, no call writes a record under another prefix. -/
theorem sparing_guarantee (context : Context)
    (permitted : List Call → StakeWorld E → Call → Prop) :
    Guarantee Uninitialised Represents Counted
      (fun _ => Spares context.caller.keyPrefix) E (Call.program context) permitted where
  refl := .refl
  trans := .trans
  setUp := by
    refine sane_of_uninitialised fun admin selfHash => ?_
    exact ⟨0, Nat.zero_le _, rfl⟩
  entry := by
    intro stack entry u v respond _ answers run book represents counted
    obtain ⟨book', represents', spares⟩ := spares_of_entry answers represents counted run
    exact ⟨book', represents', counted.spared spares, spares⟩

end Entries

/-! ## What an atomic call changes -/

private theorem Settled.amount_ne {context : Context} {selfHash : ContractPackageHash}
    {poolId : UInt64} {accrued : StakePool} {user user' : UserInfo} {call : Call}
    {requests : List TokenCall} {events : List Event}
    (settled : Settled context selfHash poolId accrued user user' call requests events) :
    user'.amount ≠ user.amount := by
  intro same
  cases settled with
  | first nonzero opened fresh total => rw [same] at total; omega
  | topUp nonzero opened staking total => rw [same] at total; omega
  | withdraw nonzero total => rw [same] at total; omega

theorem Settled.settles {context : Context} {selfHash : ContractPackageHash}
    {poolId : UInt64} {accrued : StakePool} {user user' : UserInfo} {call : Call}
    {requests : List TokenCall} {events : List Event}
    (settled : Settled context selfHash poolId accrued user user' call requests events) :
    call.settles = some poolId := by
  cases settled <;> rfl

/-- Among tokens that do not call back, the records that change are those of the
caller on the pool it settles. -/
theorem Change.user_eq_iff {context : Context} {book book' : Book} {call : Call}
    {requests : List TokenCall} {events : List Event}
    (change : Change context book call requests events book') (key : RecordKey) :
    book'.user key = book.user key ↔
      key.1 ≠ context.caller.keyPrefix ∨ call.settles ≠ some key.2 := by
  have written {poolId : UInt64} {pool : StakePool} {user' : UserInfo}
      (settles : call.settles = some poolId)
      (different : user' ≠ book.user (recordKey context.caller poolId)) :
      ((book.putPool poolId pool).putUser (recordKey context.caller poolId) user').user
          key = book.user key ↔
        key.1 ≠ context.caller.keyPrefix ∨ call.settles ≠ some key.2 := by
    rw [Book.putUser_user, settles]
    by_cases own : key = recordKey context.caller poolId
    · subst own
      simpa [recordKey] using different
    · have apart : key.1 ≠ context.caller.keyPrefix ∨ some poolId ≠ some key.2 := by
        by_contra neither
        simp only [not_or, not_not, Option.some.injEq] at neither
        exact own (Prod.ext neither.1 neither.2.symm)
      simp only [if_neg own, Book.putPool_user, apart]
  cases change with
  | settle valid found accrual settled =>
      exact written settled.settles fun same => settled.amount_ne (congrArg _ same)
  | emergencyWithdraw valid found whole nonzero =>
      refine written rfl fun same => ?_
      rw [whole, ← same] at nonzero
      exact absurd nonzero (by decide)
  | addPool => simp [Call.settles, Book.user, Book.putPool]
  | stopReward => simp [Call.settles]
  | saveMe => simp [Call.settles]
  | setAdmin => simp [Call.settles, Book.user]

section Runs

variable {E : Type} {tokens : TokenCall → E → E → Prop} {hostile : TokenCall → Prop}
variable {admin : AccountHash} {start : UInt64} {outside : E} {moment : Moment E}

/-- In every state of a run, and however the tokens call back during the call: the
record an account reads stays readable and as it is, unless the caller's printed
hash begins like its own.  A call that is not interrupted changes what an account
reads exactly when it begins alike and the call settles a stake in the pool. -/
theorem records_isolated
    (run : ReentrantRun tokens hostile (fun _ _ _ _ => True)
      (installed admin start outside) moment)
    {context : Context} {entry : Call} {depth : Nat} {w : StakeWorld E}
    (success : Runs
      (Nested (Call.program context) tokens hostile (fun _ _ _ => True) depth [entry])
      (entry.program context) moment.world () w)
    {account : AccountHash} {poolId now : UInt64} {before : UserInfo}
    (readBefore : getUserInfoForPool { caller := account, blocktime := now } poolId
      moment.world.storage = .ok before) :
    ((poolsCreated w.log).length < 2 ^ 64 → ∃ after,
      getUserInfoForPool { caller := account, blocktime := now } poolId w.storage =
        .ok after) ∧
    ∀ after, getUserInfoForPool { caller := account, blocktime := now } poolId w.storage =
        .ok after →
      (account.keyPrefix ≠ context.caller.keyPrefix → after = before) ∧
      (depth = 0 →
        (after = before ↔ account.keyPrefix ≠ context.caller.keyPrefix ∨
          entry.settles ≠ some poolId)) := by
  rcases run.sane fun context => sparing_guarantee context _ with
    ⟨⟨admin', fresh⟩, -⟩ | ⟨book, represents, counted⟩
  · rw [fresh] at readBefore
    exact absurd readBefore getUserInfo_installed
  obtain ⟨valid, rfl⟩ := represents.getUserInfoForPool_eq_ok.mp readBefore
  obtain ⟨book', represents', -, spares⟩ :=
    ((sparing_guarantee context _).call trivial success).1 book represents counted
  constructor
  · intro few
    have stillValid := UInt64.le_trans valid (spares.index_le counted few)
    exact ⟨_, represents'.getUserInfoForPool_eq_ok.mpr ⟨stillValid, rfl⟩⟩
  · intro after readAfter
    obtain ⟨-, rfl⟩ := represents'.getUserInfoForPool_eq_ok.mp readAfter
    constructor
    · exact spares.users (recordKey account poolId)
    · intro atomic
      subst atomic
      obtain ⟨bookC, requests, events, change, representsC, -, -⟩ :=
        change_of_runs represents success
      have same := (representsC.getUserInfoForPool_eq_ok.mp readAfter).2
      rw [← same]
      exact change.user_eq_iff (recordKey account poolId)

end Runs

section Sample

open Sample

/-- An account whose printed hash begins like that of the first staker. -/
def lookalike : AccountHash :=
  ⟨(staker 1).value.val.set 31 0, by decide⟩

def firstStakes : List (UInt64 × AccountHash × Call) :=
  [setUp, (10, owner, .addPool tokenA tokenA 100 200 18 (units 1000)),
    (20, staker 1, .deposit (units 10) 0), (20, staker 2, .deposit (units 10) 0)]

/-- The first staker and another one have a stake, the lookalike has none. -/
def resembling : Moment Erc20Ledger :=
  after unrestricted firstStakes opening (by decide +kernel)

private theorem run_resembling : Run around unrestricted opening resembling :=
  run_after _

/-- What the stored records read as for an account at the time of the samples. -/
def recordOf (account : AccountHash) (storage : Storage) : Except Failure UserInfo :=
  getUserInfoForPool { caller := account, blocktime := 150 } 0 storage

def otherWithdrew : Moment Erc20Ledger :=
  after unrestricted [(150, staker 2, .withdraw (units 4) 0)] resembling
    (by decide +kernel)

theorem records_isolated_otherWithdrew :
    recordOf (staker 1) otherWithdrew.world.storage =
      recordOf (staker 1) resembling.world.storage := by
  have before : recordOf (staker 1) resembling.world.storage =
      .ok { amount := units 10, rewardDebt := U256.zero } := by decide +kernel
  have withdrew : Runs
      (Nested (Call.program { caller := staker 2, blocktime := 150 }) around.answer
        (fun _ => True) (fun _ _ _ => True) 0 [.withdraw (units 4) 0])
      (Call.program { caller := staker 2, blocktime := 150 } (.withdraw (units 4) 0))
      resembling.world () otherWithdrew.world := runs_after _
  have isolated := records_isolated (run_resembling.reentrant (fun _ => True)) withdrew
    before
  obtain ⟨after, read⟩ := isolated.1 (by decide +kernel)
  have same := (isolated.2 after read).1 (by decide +kernel)
  exact read.trans (same ▸ before.symm)

def lookalikeWithdrew : Moment Erc20Ledger :=
  after unrestricted [(150, lookalike, .withdraw (units 10) 0)] resembling
    (by decide +kernel)

/-- An account with a similar hash withdraws the stake of another. -/
theorem records_shared :
    ¬ ∀ moment, Run around unrestricted opening moment →
      ∀ context (entry : Call) w,
        Runs (Quiet around.answer) (entry.program context) moment.world () w →
      ∀ account ≠ context.caller, ∀ poolId now before,
        getUserInfoForPool { caller := account, blocktime := now } poolId
          moment.world.storage = .ok before →
        getUserInfoForPool { caller := account, blocktime := now } poolId w.storage =
          .ok before := by
  intro claim
  have withdrew : Runs (Quiet around.answer)
      (Call.program { caller := lookalike, blocktime := 150 } (.withdraw (units 10) 0))
      resembling.world () lookalikeWithdrew.world := runs_after _
  have same := claim resembling run_resembling _ _ _ withdrew (staker 1)
    (by decide +kernel) 0 150 { amount := units 10, rewardDebt := U256.zero }
    (by decide +kernel)
  exact absurd same (by decide +kernel)

end Sample

end CasperContracts.Staking
