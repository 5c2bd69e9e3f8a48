import CasperContracts.Staking.OnePool

/-!
# Stakes and debts

Two facts about every pool of every run: its total is the sum of its members'
stakes, and no member's debt exceeds what its stake has earned.  They are kept
by each change of the pool, whatever the order of the calls, so the checked
subtractions that rely on them cannot fail.
-/

namespace CasperContracts.Staking

open CasperContracts.Basis Host Prog

/-- A pool agrees with its members and with the terms it was created with. -/
structure Sound (first pool : StakePool) (members : Members) : Prop where
  terms : pool.terms = first.terms
  staked : pool.totalStaked.toNat = members.staked
  debts : ∀ key, (members.user key).rewardDebt.toNat ≤
    pool.earned (members.user key).amount

namespace Accrual

variable {now : UInt64} {pool pool' : StakePool} {credit : Option Credit}

theorem scale_eq (accrual : Accrual now pool pool' credit) :
    pool'.scale = pool.scale := by
  have samePrecision : pool'.precision = pool.precision :=
    congrArg Terms.precision accrual.terms_eq
  rw [StakePool.scale, StakePool.scale, samePrecision]

/-- An update never takes away what a stake has earned. -/
theorem earned_le (accrual : Accrual now pool pool' credit) (amount : U256) :
    pool.earned amount ≤ pool'.earned amount := by
  unfold StakePool.earned
  rw [accrual.scale_eq]
  exact Nat.div_le_div_right (Nat.mul_le_mul_left _ accrual.acc_le)

end Accrual

namespace Sound

variable {first pool : StakePool} {members : Members}

theorem debt_eq_zero (sound : Sound first pool members) {key : KeyPrefix}
    (none : (members.user key).amount.toNat = 0) :
    (members.user key).rewardDebt.toNat = 0 := by
  have le := sound.debts key
  rw [StakePool.earned_eq_zero none] at le
  exact Nat.le_zero.mp le

theorem of_new {context : Context} {poolId : UInt64}
    (new : NewPool context poolId first) : Sound first first ∅ where
  terms := rfl
  staked := by rw [new.staked]; rfl
  debts := fun _ => Nat.zero_le _

/-- A record write that carries its own weight keeps the total, and one that
keeps the debt within the earnings keeps the bound. -/
theorem write {accrued : StakePool} {credit : Option Credit} {now : UInt64}
    {totalStaked : U256} {user' : UserInfo} {key : KeyPrefix}
    (sound : Sound first pool members) (accrual : Accrual now pool accrued credit)
    (staked : totalStaked.toNat + (members.user key).amount.toNat =
      accrued.totalStaked.toNat + user'.amount.toNat)
    (debt : user'.rewardDebt.toNat ≤ accrued.earned user'.amount) :
    Sound first { accrued with totalStaked } (members.insert key user') where
  terms := accrual.terms_eq.trans sound.terms
  staked := by
    have exchange := members.staked_insert key user'
    have before := sound.staked
    rw [accrual.totalStaked_eq] at staked
    change totalStaked.toNat = _
    omega
  debts := by
    intro other
    change _ ≤ accrued.earned _
    rw [Members.user_insert]
    split
    · exact debt
    · exact le_trans (sound.debts other) (accrual.earned_le _)

end Sound

theorem PoolChange.sound {context : Context} {selfHash : ContractPackageHash}
    {poolId : UInt64} {first pool pool' : StakePool} {members members' : Members}
    {call : Call} {events : List Event} (sound : Sound first pool members)
    (change : PoolChange context selfHash poolId pool members call events pool' members') :
    Sound first pool' members' := by
  cases change with
  | settle accrual settled debt staked =>
      exact sound.write accrual staked (le_of_eq debt)
  | @emergencyWithdraw amount totalStaked whole nonzero staked =>
      subst whole
      have unchanged : Accrual pool.lastRewardTimestamp pool pool none :=
        .kept (.inl (UInt64.le_refl _))
      refine sound.write unchanged ?_ (Nat.zero_le _)
      rw [staked]
      rfl
  | stopReward accrual =>
      exact {
        terms := accrual.terms_eq.trans sound.terms
        staked := (congrArg U256.toNat accrual.totalStaked_eq).trans sound.staked
        debts := fun key => le_trans (sound.debts key) (accrual.earned_le _) }

theorem sound_invariant {permitted : Context → Call → Storage → Prop}
    (poolId : UInt64) (first : StakePool) :
    PoolInvariant permitted poolId fun _ pool members _ => Sound first pool members where
  wait := fun sound _ => sound
  change := fun sound _ _ _ change => change.sound sound

/-! ## The stored records -/

def recordAmount (bytes : List UInt8) : Nat :=
  (UserInfo.unpack bytes).elim 0 fun user => user.amount.toNat

/-- The sum of the stakes stored for a pool in the user dictionary.  Behind the
fifteen characters of the account, a key is the pool id in decimal. -/
def storedStakes (poolId : UInt64) (users : Dictionary) : Nat :=
  FiniteStore.total
    (fun key bytes => if key.drop 15 = decimal poolId then recordAmount bytes else 0)
    users

section Stored

variable {storage : Storage} {book : Book} {users : Dictionary} {poolId : UInt64}

private theorem Represents.encodes_users (represents : Represents storage book)
    (stored : storage.userInfos = some users) :
    FiniteStore.Encodes RecordKey.encode UserInfo.pack book.users users := by
  obtain ⟨dictionary, known, encodes⟩ := represents.users
  rw [stored, Option.some.injEq] at known
  exact known ▸ encodes

theorem Represents.storedStakes_eq (represents : Represents storage book)
    (stored : storage.userInfos = some users) :
    storedStakes poolId users = (book.members poolId).staked := by
  rw [storedStakes,
    (represents.encodes_users stored).total RecordKey.encode_injective, Members.staked,
    Book.members, FiniteStore.total_slice]
  apply FiniteStore.total_congr
  intro key user found
  have sameId : decimal key.2 = decimal poolId ↔ key.2 = poolId :=
    ⟨fun same => decimal_injective same, fun same => by rw [same]⟩
  simp [RecordKey.drop_encode, sameId, recordAmount, UserInfo.unpack_pack]

theorem Represents.stored_record (represents : Represents storage book)
    (stored : storage.userInfos = some users) {key : DictKey} {bytes : List UInt8}
    (found : users.lookup key = some bytes) (ofPool : key.drop 15 = decimal poolId) :
    ∃ account user, (book.members poolId).lookup account = some user ∧
      bytes = user.pack := by
  obtain ⟨⟨account, id⟩, user, member, rfl, rfl⟩ :=
    (represents.encodes_users stored key bytes).mp found
  rw [RecordKey.drop_encode] at ofPool
  obtain rfl : id = poolId := decimal_injective ofPool
  exact ⟨account, user, by rw [Book.members, FiniteStore.lookup_slice, member], rfl⟩

end Stored

/-! ## Total stakes -/

section Runs

variable {E : Type} {around : Surroundings E} {admin : AccountHash} {start : UInt64}
variable {outside : E} {moment : Moment E}

theorem Run.sound
    (run : Run around unrestricted (installed admin start outside) moment)
    (few : (poolsCreated moment.world.log).length < 2 ^ 64) :
    (∃ admin', moment.world.storage = .installed admin') ∨
      ∃ book, Represents moment.world.storage book ∧
        (∀ poolId pool, book.pool poolId = some pool → poolId < book.index ∧
          ∃ first, Sound first pool (book.members poolId)) ∧
        (∀ poolId < book.index, ∃ pool, book.pool poolId = some pool) ∧
        ∀ poolId, book.index ≤ poolId → book.members poolId = ∅ := by
  rcases run.pools (fun _ first _ pool members _ => Sound first pool members)
      (fun poolId first => sound_invariant poolId first) (fun _ _ _ new => .of_new new)
      few with fresh | ⟨book, represents, below, above⟩
  · exact .inl fresh
  · refine .inr ⟨book, represents, ?_, ?_, fun poolId le => (above poolId le).2⟩
    · intro poolId pool found
      have lt : poolId < book.index := by
        by_contra notBelow
        rw [(above poolId (UInt64.not_lt.mp notBelow)).1] at found
        cases found
      obtain ⟨first, pool', -, found', sound⟩ := below poolId lt
      rw [found, Option.some.injEq] at found'
      exact ⟨lt, first, found' ▸ sound⟩
    · intro poolId lt
      obtain ⟨first, pool, -, found, -⟩ := below poolId lt
      exact ⟨pool, found⟩

/-- In every state reached with fewer than `2 ^ 64` pools created, the stored
total of each pool below the index is the sum of the stakes stored for it, no
record is stored for any other id, and the subtraction of a stake that its
owner has from the pool's total is defined. -/
theorem totalStaked_eq_storedStakes {index : UInt64} {users : Dictionary}
    (run : Run around unrestricted (installed admin start outside) moment)
    (few : (poolsCreated moment.world.log).length < 2 ^ 64)
    (indexKnown : moment.world.storage.index = some index)
    (usersKnown : moment.world.storage.userInfos = some users) :
    (∀ poolId < index, ∃ pool, getPool poolId moment.world.storage = .ok pool ∧
        pool.totalStaked.toNat = storedStakes poolId users) ∧
      (∀ poolId, index ≤ poolId → ∀ key, key.drop 15 = decimal poolId →
        users.lookup key = none) ∧
      ∀ poolId context pool user amount,
        getPool poolId moment.world.storage = .ok pool →
        getUserInfoForPool context poolId moment.world.storage = .ok user →
        (user.amount.checkedSub amount).isSome →
        (pool.totalStaked.checkedSub amount).isSome := by
  rcases run.sound few with ⟨admin', fresh⟩ |
    ⟨book, represents, sound, present, noMembers⟩
  · rw [fresh] at indexKnown
    cases indexKnown
  have sameIndex : book.index = index := by
    rw [represents.index, Option.some.injEq] at indexKnown
    exact indexKnown
  subst sameIndex
  refine ⟨?_, ?_, ?_⟩
  · intro poolId lt
    obtain ⟨pool, found⟩ := present poolId lt
    obtain ⟨-, first, agrees⟩ := sound poolId pool found
    refine ⟨pool, represents.getPool_eq_ok.mpr ⟨UInt64.le_of_lt lt, found⟩, ?_⟩
    rw [represents.storedStakes_eq usersKnown, agrees.staked]
  · intro poolId le key ofPool
    by_contra stored
    obtain ⟨bytes, found⟩ := Option.ne_none_iff_exists'.mp stored
    obtain ⟨account, user, member, -⟩ := represents.stored_record usersKnown found ofPool
    rw [noMembers poolId le] at member
    cases member
  · intro poolId context pool user amount readPool readUser enough
    obtain ⟨-, found⟩ := represents.getPool_eq_ok.mp readPool
    obtain ⟨-, rfl⟩ := represents.getUserInfoForPool_eq_ok.mp readUser
    obtain ⟨-, first, agrees⟩ := sound poolId pool found
    have bound := (book.members poolId).amount_le_staked context.caller.keyPrefix
    rw [← agrees.staked] at bound
    rw [recordKey, Book.user_eq, U256.isSome_checkedSub] at enough
    exact U256.isSome_checkedSub.mpr (le_trans enough bound)

end Runs

section Sample

open Sample

/-- Two stakers with different arrivals, one of whom has withdrawn a part. -/
def market : Moment Erc20Ledger :=
  after unrestricted
    [setUp, (10, owner, .addPool tokenA tokenA 100 200 18 (units 1000)),
      (20, staker 1, .deposit (units 10) 0), (120, staker 2, .deposit (units 30) 0),
      (150, staker 1, .withdraw (units 4) 0)]
    opening (by decide +kernel)

private theorem run_market : Run around unrestricted opening market :=
  run_after _

theorem totalStaked_eq_storedStakes_market :
    ∃ pool, getPool 0 market.world.storage = .ok pool ∧
      pool.totalStaked.toNat =
        storedStakes 0 (market.world.storage.userInfos.get (by decide +kernel)) :=
  have index : market.world.storage.index = some 1 := by decide +kernel
  (totalStaked_eq_storedStakes run_market (by decide +kernel) index
    (Option.some_get _).symm).1 0 (by decide)

end Sample

/-! ## Debts -/

/-- The world that has this storage and outside, and whose log goes on from that
of `w` with these events. -/
def extended {E : Type} (w : StakeWorld E) (storage : Storage) (outside : E)
    (events : List Event) : StakeWorld E where
  storage := storage
  outside := outside
  log := w.log ++ events

private theorem runs_payDeposit_bind {E : Type}
    {respond : TokenCall → StakeWorld E → StakeWorld E → Prop} {context : Context}
    {pending amount : U256} {rewardToken stakingToken : ContractHash}
    {f : Unit → Contract Unit} {w w' : StakeWorld E} :
    Runs respond (payDeposit context pending amount rewardToken stakingToken >>= f)
        w () w' ↔
      ∃ u, Runs respond (payDeposit context pending amount rewardToken stakingToken)
        w () u ∧ Runs respond (f ()) u () w' :=
  runs_unit_bind

/-- For an account without stake and debt the general branch of `deposit` does
what the first-deposit branch does, and reports a reward of zero. -/
theorem runs_topUpDeposit_of_empty {E : Type} {tokens : TokenCall → E → E → Prop}
    {context : Context} {amount newAmount : U256} {pool : StakePool} {user : UserInfo}
    {poolId : UInt64} {w : StakeWorld E} {storage' : Storage} {e' : E}
    (noStake : user.amount.toNat = 0) (noDebt : user.rewardDebt.toNat = 0) :
    Runs (Quiet tokens) (topUpDeposit context amount newAmount pool user poolId) w ()
        (extended w storage' e' [.rewardPaid poolId context.caller U256.zero,
          .deposited poolId context.caller amount]) ↔
      Runs (Quiet tokens) (firstDeposit context amount newAmount pool poolId) w ()
        (extended w storage' e' [.deposited poolId context.caller amount]) := by
  simp only [topUpDeposit, firstDeposit, runs_arith_bind, runs_payDeposit_bind,
    runs_reads_bind, runs_request_bind, runs_updates_bind, runs_record_bind, runs_record,
    U256.checkedAdd_eq_some, U256.checkedSub_eq_some, U256.checkedMul_eq_some,
    U256.checkedDiv_eq_some, U256.checkedPow_eq_some, noStake, noDebt, Nat.zero_mul,
    Nat.add_zero]
  constructor
  · intro given
    obtain ⟨precision, power, product, productZero, quotient, ⟨positive, quotientEq⟩,
        pending, pendingEq, totalStaked, stakedEq, newProduct, newProductEq, rewardDebt,
        debtEq, u, paid, storage, written, after⟩ := given
    have pendingZero : pending = U256.zero := by
      apply U256.toNat_injective
      rw [← pendingEq, quotientEq, productZero, Nat.zero_div]
      rfl
    subst pendingZero
    rw [payDeposit_of_zero rfl, runs_reads_bind] at paid
    obtain ⟨spender, self, answered⟩ := paid
    rw [runs_request] at answered
    refine ⟨totalStaked, stakedEq, newProduct, newProductEq, precision, power,
      rewardDebt, debtEq, spender, self, u, answered, storage, written, ?_⟩
    obtain ⟨e, -, rfl⟩ := answered
    simpa [extended] using after
  · intro given
    obtain ⟨totalStaked, stakedEq, newProduct, newProductEq, precision, power,
        rewardDebt, debtEq, spender, self, u, answered, storage, written, after⟩ := given
    refine ⟨precision, power, U256.zero, rfl, U256.zero, ⟨debtEq.1, ?_⟩, U256.zero, rfl,
      totalStaked, stakedEq, newProduct, newProductEq, rewardDebt, debtEq, u, ?_, storage,
      written, ?_⟩
    · exact (Nat.zero_div _).symm
    · rw [payDeposit_of_zero rfl, runs_reads_bind]
      exact ⟨spender, self, runs_request.mpr answered⟩
    · obtain ⟨e, -, rfl⟩ := answered
      simpa [extended] using after

/-- Every stored debt is at most what the stake has earned, and zero without a
stake. -/
def DebtsWithin (storage : Storage) : Prop :=
  ∀ (users : Dictionary) (poolId : UInt64) (pool : StakePool) (key : DictKey)
    (bytes : List UInt8) (user : UserInfo),
    storage.userInfos = some users → getPool poolId storage = .ok pool →
    users.lookup key = some bytes → key.drop 15 = decimal poolId →
    UserInfo.unpack bytes = some user →
    user.rewardDebt.toNat ≤ pool.earned user.amount ∧
      (user.amount.toNat = 0 → user.rewardDebt.toNat = 0)

/-- After an update at any time the debt of any account can be subtracted from
what its stake has earned. -/
def PendingDefined (storage : Storage) : Prop :=
  ∀ (context : Context) (poolId : UInt64) (pool accrued : StakePool)
    (credit : Option Credit) (user : UserInfo) (quotient : U256),
    getPool poolId storage = .ok pool →
    updatedPool context.blocktime pool = .ok (accrued, credit) →
    getUserInfoForPool context poolId storage = .ok user →
    quotient.toNat = accrued.earned user.amount →
    (quotient.checkedSub user.rewardDebt).isSome

/-- Right after a successful deposit or withdrawal the caller's debt is what its
stake has earned. -/
def SettlesExactly {E : Type} (tokens : TokenCall → E → E → Prop)
    (w : StakeWorld E) : Prop :=
  ∀ (context : Context) (call : Call) (amount : U256) (poolId : UInt64)
    (w' : StakeWorld E) (pool : StakePool) (user : UserInfo),
    call = .deposit amount poolId ∨ call = .withdraw amount poolId →
    Runs (Quiet tokens) (call.program context) w () w' →
    getPool poolId w'.storage = .ok pool →
    getUserInfoForPool context poolId w'.storage = .ok user →
    user.rewardDebt.toNat = pool.earned user.amount

/-- For an account without stake the general branch of `deposit` does what the
first-deposit branch does, and reports a reward of zero. -/
def BranchesAgree {E : Type} (tokens : TokenCall → E → E → Prop)
    (storage : Storage) : Prop :=
  ∀ (context : Context) (poolId : UInt64) (stored pool : StakePool) (user : UserInfo)
    (amount newAmount : U256) (w : StakeWorld E) (storage' : Storage) (e' : E),
    getPool poolId storage = .ok stored →
    getUserInfoForPool context poolId storage = .ok user → user.amount.toNat = 0 →
    (Runs (Quiet tokens) (topUpDeposit context amount newAmount pool user poolId) w ()
        (extended w storage' e' [.rewardPaid poolId context.caller U256.zero,
          .deposited poolId context.caller amount]) ↔
      Runs (Quiet tokens) (firstDeposit context amount newAmount pool poolId) w ()
        (extended w storage' e' [.deposited poolId context.caller amount]))

section Debts

variable {E : Type} {tokens : TokenCall → E → E → Prop} {w : StakeWorld E} {book : Book}
variable {storage : Storage}

def Book.AllSound (book : Book) : Prop :=
  ∀ poolId pool, book.pool poolId = some pool →
    ∃ first, Sound first pool (book.members poolId)

theorem debtsWithin_of_sound (represents : Represents storage book)
    (sound : book.AllSound) : DebtsWithin storage := by
  intro users poolId pool key bytes user stored readPool found ofPool unpacked
  obtain ⟨-, foundPool⟩ := represents.getPool_eq_ok.mp readPool
  obtain ⟨first, agrees⟩ := sound poolId pool foundPool
  obtain ⟨account, record, member, rfl⟩ := represents.stored_record stored found ofPool
  rw [UserInfo.unpack_pack, Option.some.injEq] at unpacked
  subst unpacked
  have isUser : (book.members poolId).user account = record := by
    simp [Members.user, member]
  constructor
  · exact isUser ▸ agrees.debts account
  · intro noStake
    rw [← isUser] at noStake ⊢
    exact agrees.debt_eq_zero noStake

theorem pendingDefined_of_sound (represents : Represents storage book)
    (sound : book.AllSound) : PendingDefined storage := by
  intro context poolId pool accrued credit user quotient readPool computed readUser
    quotientEq
  obtain ⟨-, found⟩ := represents.getPool_eq_ok.mp readPool
  obtain ⟨-, rfl⟩ := represents.getUserInfoForPool_eq_ok.mp readUser
  obtain ⟨first, agrees⟩ := sound poolId pool found
  rw [U256.isSome_checkedSub, quotientEq, recordKey, Book.user_eq]
  exact le_trans (agrees.debts _) ((accrual_of_updatedPool computed).earned_le _)

theorem settlesExactly_of_represents (represents : Represents w.storage book) :
    SettlesExactly tokens w := by
  intro context call amount poolId w' pool user settles run readPool readUser
  obtain ⟨book', requests, events, change, represents', -, -⟩ :=
    change_of_runs represents run
  obtain ⟨-, found⟩ := represents'.getPool_eq_ok.mp readPool
  obtain ⟨-, rfl⟩ := represents'.getUserInfoForPool_eq_ok.mp readUser
  obtain ⟨before, accrued, credit, user', totalStaked, -, -, debt, rfl⟩ :=
    change.settlement settles
  rw [Book.putUser_pool, Book.putPool_pool_same, Option.some.injEq] at found
  subst found
  rw [Book.putUser_user, if_pos rfl]
  exact debt

theorem branchesAgree_of_sound (represents : Represents storage book)
    (sound : book.AllSound) : BranchesAgree tokens storage := by
  intro context poolId stored pool user amount newAmount w storage' e' readPool readUser
    noStake
  obtain ⟨-, found⟩ := represents.getPool_eq_ok.mp readPool
  obtain ⟨-, rfl⟩ := represents.getUserInfoForPool_eq_ok.mp readUser
  obtain ⟨first, agrees⟩ := sound poolId stored found
  rw [recordKey, Book.user_eq] at noStake ⊢
  exact runs_topUpDeposit_of_empty noStake (agrees.debt_eq_zero noStake)

private theorem debts_of_installed {admin : AccountHash}
    (fresh : w.storage = .installed admin) :
    DebtsWithin w.storage ∧ PendingDefined w.storage ∧ SettlesExactly tokens w ∧
      BranchesAgree tokens w.storage := by
  have noPool : ∀ poolId pool, getPool poolId w.storage ≠ .ok pool := by
    intro poolId pool
    rw [fresh]
    exact getPool_installed
  refine ⟨?_, ?_, ?_, ?_⟩
  · intro users poolId pool key bytes user stored readPool
    exact absurd readPool (noPool _ _)
  · intro context poolId pool accrued credit user quotient readPool
    exact absurd readPool (noPool _ _)
  · intro context call amount poolId w' pool user settles success readPool
    obtain ⟨-, ⟨_, stillFresh⟩ | ⟨selfHash, represents⟩⟩ := runs_installed fresh success
    · rw [stillFresh] at readPool
      exact absurd readPool getPool_installed
    · obtain ⟨-, found⟩ := represents.getPool_eq_ok.mp readPool
      cases found
  · intro context poolId stored pool user amount newAmount w storage' e' readPool
    exact absurd readPool (noPool _ _)

end Debts

section Runs

variable {E : Type} {around : Surroundings E} {admin : AccountHash} {start : UInt64}
variable {outside : E} {moment : Moment E}

/-- In every state reached with fewer than `2 ^ 64` pools created the debts are
within the earnings, the subtraction of a debt is defined after any further
update, a settlement makes the debt equal to the earnings, and the two branches
of `deposit` agree on an account without stake. -/
theorem rewardDebt_le_earned
    (run : Run around unrestricted (installed admin start outside) moment)
    (few : (poolsCreated moment.world.log).length < 2 ^ 64) :
    DebtsWithin moment.world.storage ∧ PendingDefined moment.world.storage ∧
      SettlesExactly around.answer moment.world ∧
      BranchesAgree around.answer moment.world.storage := by
  rcases run.sound few with ⟨admin', fresh⟩ | ⟨book, represents, sound, -, -⟩
  · exact debts_of_installed fresh
  · have allSound : book.AllSound :=
      fun poolId pool found => (sound poolId pool found).2
    exact ⟨debtsWithin_of_sound represents allSound,
      pendingDefined_of_sound represents allSound,
      settlesExactly_of_represents represents,
      branchesAgree_of_sound represents allSound⟩

end Runs

open Sample in
theorem rewardDebt_le_earned_market :
    DebtsWithin market.world.storage ∧ PendingDefined market.world.storage ∧
      SettlesExactly around.answer market.world ∧
      BranchesAgree around.answer market.world.storage :=
  rewardDebt_le_earned run_market (by decide +kernel)

end CasperContracts.Staking
