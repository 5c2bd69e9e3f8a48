import CasperContracts.Basis.Specification
import CasperContracts.Host.Supply
import CasperContracts.Staking.Emergency
import CasperContracts.Staking.FairShare

/-!
# Everybody can leave

One emergency withdrawal always works.  Here they are put in a row: if the contract has
the stakes, all stakers can leave one after the other, in any order and from any pools,
also from pools that cannot be updated any more.
-/

namespace CasperContracts.Staking

open CasperContracts.Basis Host Prog

def StakePool.stakedIn (token : ContractHash) (pool : StakePool) : Nat :=
  if pool.stakingToken = token then pool.totalStaked.toNat else 0

def stakedIn (token : ContractHash) (storage : Storage) : Nat :=
  match storage.stakeInfos with
  | some pools => FiniteStore.total
      (fun _ bytes => (StakePool.unpack bytes).elim 0 fun pool => pool.stakedIn token) pools
  | none => 0

/-- The emergency withdrawal of an account from a pool. -/
def exitBy (timestamp : UInt64) : UInt64 × AccountHash → Context × Call
  | (poolId, account) =>
      ({ caller := account, blocktime := timestamp }, .emergencyWithdraw poolId)

def stakeOf (storage : Storage) : UInt64 × AccountHash → Nat
  | (poolId, account) => stakeIn account poolId storage

def leaverKey : UInt64 × AccountHash → RecordKey
  | (poolId, account) => recordKey account poolId

/-- What of it is in a token and goes to an account. -/
def returnedTo (token : ContractHash) (account : AccountHash) (storage : Storage)
    (leaver : UInt64 × AccountHash) : Nat :=
  match getPool leaver.1 storage with
  | .ok pool =>
      if pool.stakingToken = token ∧ leaver.2 = account then stakeOf storage leaver else 0
  | .error _ => 0

section Exits

variable {E : Type} {package : ContractPackageHash} {answer : TokenCall → E → E → Prop}
  {balances : E → Balances} {allowances : E → Allowances}
variable {matters : ContractHash → Prop} {book : Book} {w : StakeWorld E}
  {poolId timestamp : UInt64} {account : AccountHash} {pool : StakePool}

theorem Represents.stakedIn_eq {storage : Storage} (represents : Represents storage book)
    (token : ContractHash) :
    stakedIn token storage = FiniteStore.total (fun _ pool => pool.stakedIn token) book.pools := by
  obtain ⟨dictionary, stored, encodes⟩ := represents.pools
  rw [stakedIn, stored]
  simp only
  rw [encodes.total (numberedKey_injective _)]
  apply FiniteStore.total_congr
  intro poolId pool _
  simp [StakePool.unpack_pack]

/-- The pools add up, and the contract has what they add up to in the tokens that matter,
among accounts with room for it. -/
structure Solvent (package : ContractPackageHash) (balances : E → Balances)
    (matters : ContractHash → Prop) (book : Book) (w : StakeWorld E) : Prop where
  represents : Represents w.storage book
  below : ∀ {poolId pool}, book.pool poolId = some pool → poolId < book.index
  total : ∀ {poolId pool}, book.pool poolId = some pool →
    pool.totalStaked.toNat = (book.members poolId).staked
  covered : ∀ token, matters token →
    FiniteStore.total (fun _ pool => StakePool.stakedIn token pool) book.pools ≤
      balances w.outside token (.contract package)
  room : ∀ token account, balances w.outside token (.contract package) +
    balances w.outside token (.account account) < 2 ^ 256

theorem Solvent.covers (solvent : Solvent package balances matters book w)
    (found : book.pool poolId = some pool) (important : matters pool.stakingToken) :
    (book.user (recordKey account poolId)).amount.toNat ≤
      balances w.outside pool.stakingToken (.contract package) := by
  have covered := solvent.covered pool.stakingToken important
  have share := FiniteStore.le_total
    (fun _ entry => StakePool.stakedIn pool.stakingToken entry) found
  have staked := (book.members poolId).amount_le_staked account.keyPrefix
  rw [← solvent.total found] at staked
  rw [StakePool.stakedIn, if_pos rfl] at share
  rw [recordKey, Book.user_eq]
  omega

def Book.exited (book : Book) (poolId : UInt64) (account : AccountHash) (pool : StakePool)
    (totalStaked : U256) : Book :=
  (book.putPool poolId { pool with totalStaked }).putUser (recordKey account poolId)
    { amount := U256.zero, rewardDebt := U256.zero }

theorem Solvent.exited {totalStaked : U256} {w' : StakeWorld E}
    (solvent : Solvent package balances matters book w) (found : book.pool poolId = some pool)
    (lowered : pool.totalStaked.toNat =
      totalStaked.toNat + (book.user (recordKey account poolId)).amount.toNat)
    (represents' : Represents w'.storage (book.exited poolId account pool totalStaked))
    (moved : Moves (balances w.outside) (balances w'.outside) pool.stakingToken
      (.contract package) (.account account)
      (book.user (recordKey account poolId)).amount.toNat) :
    Solvent package balances matters (book.exited poolId account pool totalStaked) w' := by
  have pools : ∀ other, (book.exited poolId account pool totalStaked).pool other =
      if other = poolId then some { pool with totalStaked } else book.pool other := by
    intro other
    rw [Book.exited, Book.putUser_pool, Book.putPool_pool]
  refine ⟨represents', ?_, ?_, ?_, ?_⟩
  · intro other record stored
    rw [pools] at stored
    split at stored
    · rename_i same
      subst same
      exact solvent.below found
    · exact solvent.below stored
  · intro other record stored
    rw [pools] at stored
    rw [Book.exited, recordKey, Book.putUser_members, Book.putPool_members]
    split at stored
    · rename_i same
      subst same
      cases stored
      have exchange := (book.members other).staked_insert account.keyPrefix
        { amount := U256.zero, rewardDebt := U256.zero }
      have total := solvent.total found
      rw [recordKey, Book.user_eq] at lowered
      rw [if_pos rfl]
      simp only [U256.toNat_zero, Nat.add_zero] at exchange
      change totalStaked.toNat = _
      omega
    · rename_i different
      rw [if_neg (Ne.symm different)]
      exact solvent.total stored
  · intro token important
    have covered := solvent.covered token important
    have exchange := FiniteStore.total_insert
      (fun _ entry => StakePool.stakedIn token entry) book.pools poolId
      { pool with totalStaked }
    have paid := moved token (.contract package)
    change FiniteStore.total _ (Finmap.insert poolId { pool with totalStaked } book.pools) ≤ _
    rw [show book.pools.lookup poolId = some pool from found, Option.elim_some] at exchange
    change _ + (if pool.stakingToken = token then pool.totalStaked.toNat else 0) =
      _ + (if pool.stakingToken = token then totalStaked.toNat else 0) at exchange
    simp only [reduceCtorEq, and_true, and_false, if_false, add_zero] at paid
    by_cases inToken : pool.stakingToken = token
    · rw [if_pos inToken, if_pos inToken] at exchange
      rw [if_pos inToken.symm] at paid
      omega
    · rw [if_neg inToken, if_neg inToken] at exchange
      rw [if_neg (Ne.symm inToken)] at paid
      omega
  · intro token other
    have room := solvent.room token other
    have here := moved token (.contract package)
    have there := moved token (.account other)
    by_cases inToken : token = pool.stakingToken
    · simp only [inToken, true_and, reduceCtorEq, if_true, if_false, add_zero] at here there room ⊢
      split at there <;> omega
    · simp only [inToken, false_and, if_false, add_zero] at here there
      omega

theorem Solvent.exit (solvent : Solvent package balances matters book w) (timestamp : UInt64)
    (full : FullErc20 package answer balances allowances)
    (found : book.pool poolId = some pool) (important : matters pool.stakingToken)
    (staked : 0 < (book.user (recordKey account poolId)).amount.toNat) :
    ∃ totalStaked w', Runs (Quiet answer) ((Call.emergencyWithdraw poolId).program
        { caller := account, blocktime := timestamp }) w () w' ∧
      pool.totalStaked.toNat =
        totalStaked.toNat + (book.user (recordKey account poolId)).amount.toNat ∧
      Solvent package balances matters (book.exited poolId account pool totalStaked) w' ∧
      Moves (balances w.outside) (balances w'.outside) pool.stakingToken
        (.contract package) (.account account)
        (book.user (recordKey account poolId)).amount.toNat := by
  let context : Context := { caller := account, blocktime := timestamp }
  have valid := UInt64.le_of_lt (solvent.below found)
  have readPool := solvent.represents.getPool_eq_ok.mpr ⟨valid, found⟩
  have readUser : getUserInfoForPool context poolId w.storage =
      .ok (book.user (recordKey account poolId)) :=
    solvent.represents.getUserInfoForPool_eq_ok.mpr ⟨valid, rfl⟩
  have within : (book.user (recordKey account poolId)).amount.toNat ≤
      pool.totalStaked.toNat := by
    rw [recordKey, Book.user_eq, solvent.total found]
    exact (book.members poolId).amount_le_staked _
  obtain ⟨e, answered⟩ := full.exists_transfer
    (solvent.room pool.stakingToken account) (solvent.covers found important)
  obtain ⟨w', run⟩ : ∃ w', Runs (Quiet answer) ((Call.emergencyWithdraw poolId).program
      context) w () w' := by
    obtain ⟨w', run, -⟩ :=
      exists_emergencyWithdraw solvent.represents readPool readUser staked within answered
    exact ⟨w', run⟩
  obtain ⟨book', requests, events, change, represents', -, answers⟩ :=
    change_of_runs solvent.represents run
  cases change with
  | settle _ _ _ settled => cases settled
  | @emergencyWithdraw _ pool' amount totalStaked _ found' whole nonzero lowered =>
      cases found.symm.trans found'
      subst whole
      have moved := full.transfer (answers_singleton.mp answers)
      exact ⟨totalStaked, w', run, lowered,
        solvent.exited found lowered represents' moved, moved⟩

def Book.stakeOf (book : Book) (leaver : UInt64 × AccountHash) : Nat :=
  (book.user (leaverKey leaver)).amount.toNat

def Book.returnedTo (book : Book) (token : ContractHash) (account : AccountHash)
    (leaver : UInt64 × AccountHash) : Nat :=
  match book.pool leaver.1 with
  | some pool =>
      if pool.stakingToken = token ∧ leaver.2 = account then book.stakeOf leaver else 0
  | none => 0

def Book.takenFrom (book : Book) (poolId : UInt64) (leaving : List (UInt64 × AccountHash)) :
    Nat :=
  (leaving.map fun leaver => if leaver.1 = poolId then book.stakeOf leaver else 0).sum

/-- What becomes of the book when some stakers leave: their records are empty, and their
stakes are missing from the pools. -/
structure Left (leaving : List (UInt64 × AccountHash)) (book book' : Book) : Prop where
  index : book'.index = book.index
  records : ∀ key, book'.user key = if key ∈ leaving.map leaverKey then
    { amount := U256.zero, rewardDebt := U256.zero } else book.user key
  pools : ∀ poolId pool, book.pool poolId = some pool → ∃ pool',
    book'.pool poolId = some pool' ∧ pool'.stakingToken = pool.stakingToken ∧
      pool.totalStaked.toNat = pool'.totalStaked.toNat + book.takenFrom poolId leaving
  absent : ∀ poolId, book.pool poolId = none → book'.pool poolId = none

section Others

variable {totalStaked : U256} {other : UInt64 × AccountHash}

theorem Book.exited_user (key : RecordKey) :
    (book.exited poolId account pool totalStaked).user key =
      if key = recordKey account poolId then { amount := U256.zero, rewardDebt := U256.zero }
      else book.user key := by
  rw [Book.exited, Book.putUser_user, Book.putPool_user]

theorem Book.exited_pool (other : UInt64) :
    (book.exited poolId account pool totalStaked).pool other =
      if other = poolId then some { pool with totalStaked } else book.pool other := by
  rw [Book.exited, Book.putUser_pool, Book.putPool_pool]

theorem Book.exited_stakeOf (different : leaverKey other ≠ recordKey account poolId) :
    (book.exited poolId account pool totalStaked).stakeOf other = book.stakeOf other := by
  rw [Book.stakeOf, Book.exited_user, if_neg different]
  rfl

theorem Book.exited_returnedTo (found : book.pool poolId = some pool)
    (different : leaverKey other ≠ recordKey account poolId) (token : ContractHash)
    (receiver : AccountHash) :
    (book.exited poolId account pool totalStaked).returnedTo token receiver other =
      book.returnedTo token receiver other := by
  rw [Book.returnedTo, Book.returnedTo, Book.exited_pool, Book.exited_stakeOf different]
  by_cases same : other.1 = poolId
  · rw [if_pos same, same, found]
  · rw [if_neg same]

end Others

theorem Left.cons {leaving : List (UInt64 × AccountHash)} {book' : Book} {totalStaked : U256}
    (found : book.pool poolId = some pool)
    (lowered : pool.totalStaked.toNat =
      totalStaked.toNat + (book.user (recordKey account poolId)).amount.toNat)
    (others : ∀ leaver ∈ leaving, leaverKey leaver ≠ recordKey account poolId)
    (left : Left leaving (book.exited poolId account pool totalStaked) book') :
    Left ((poolId, account) :: leaving) book book' where
  index := left.index
  records := by
    intro key
    rw [left.records, Book.exited_user, List.map_cons]
    simp only [List.mem_cons]
    by_cases later : key ∈ leaving.map leaverKey
    · simp only [later, or_true, if_true]
    · simp only [later, or_false, if_false]
      rfl
  pools := by
    intro other record stored
    have sameTaken : (book.exited poolId account pool totalStaked).takenFrom other leaving =
        book.takenFrom other leaving := by
      rw [Book.takenFrom, Book.takenFrom]
      congr 1
      apply List.map_congr_left
      intro leaver member
      rw [Book.exited_stakeOf (others leaver member)]
    have step : book.takenFrom other ((poolId, account) :: leaving) =
        (if poolId = other then (book.user (recordKey account poolId)).amount.toNat else 0) +
          book.takenFrom other leaving := by
      rw [Book.takenFrom, List.map_cons, List.sum_cons]
      rfl
    by_cases same : other = poolId
    · subst same
      cases found.symm.trans stored
      obtain ⟨pool', found', sameToken, total⟩ :=
        left.pools other { pool with totalStaked } (by rw [Book.exited_pool, if_pos rfl])
      refine ⟨pool', found', sameToken, ?_⟩
      rw [sameTaken] at total
      rw [step, if_pos rfl, lowered]
      change totalStaked.toNat = _ at total
      omega
    · obtain ⟨pool', found', sameToken, total⟩ :=
        left.pools other record (by rw [Book.exited_pool, if_neg same, stored])
      refine ⟨pool', found', sameToken, ?_⟩
      rw [sameTaken] at total
      rw [step, if_neg (Ne.symm same), Nat.zero_add]
      exact total
  absent := by
    intro other none
    have different : other ≠ poolId := by
      intro same
      rw [same, found] at none
      cases none
    exact left.absent other (by rw [Book.exited_pool, if_neg different, none])

variable {around : Surroundings E}

theorem Solvent.exitAll (full : FullErc20 package around.answer balances allowances)
    {leaving : List (UInt64 × AccountHash)} (distinct : (leaving.map leaverKey).Nodup)
    (solvent : Solvent package balances matters book w)
    (staking : ∀ leaver ∈ leaving, 0 < book.stakeOf leaver)
    (existing : ∀ leaver ∈ leaving, ∃ pool, book.pool leaver.1 = some pool ∧
      matters pool.stakingToken) :
    ∃ steps book' w', History (around.setting unrestricted) timestamp w steps timestamp w' ∧
      calls steps = leaving.map (exitBy timestamp) ∧ Solvent package balances matters book' w' ∧
      Left leaving book book' ∧
      ∀ token receiver, balances w'.outside token (.account receiver) =
        balances w.outside token (.account receiver) +
          (leaving.map (book.returnedTo token receiver)).sum := by
  induction leaving generalizing book w with
  | nil =>
      refine ⟨[], book, w, .start, rfl, solvent, ⟨rfl, by simp, ?_, fun _ none => none⟩,
        by simp⟩
      intro poolId pool found
      exact ⟨pool, found, rfl, rfl⟩
  | cons head leaving ih =>
      obtain ⟨poolId, account⟩ := head
      obtain ⟨notIn, distinct'⟩ := List.nodup_cons.mp distinct
      obtain ⟨pool, found, important⟩ := existing _ List.mem_cons_self
      obtain ⟨totalStaked, u, run, lowered, solventU, moved⟩ :=
        solvent.exit timestamp full found important (staking _ List.mem_cons_self)
      have others : ∀ leaver ∈ leaving, leaverKey leaver ≠ recordKey account poolId := by
        intro leaver member same
        exact notIn (List.mem_map.mpr ⟨leaver, member, same⟩)
      have staking' : ∀ leaver ∈ leaving,
          0 < (book.exited poolId account pool totalStaked).stakeOf leaver := by
        intro leaver member
        rw [Book.exited_stakeOf (others leaver member)]
        exact staking leaver (List.mem_cons_of_mem _ member)
      have existing' : ∀ leaver ∈ leaving, ∃ pool',
          (book.exited poolId account pool totalStaked).pool leaver.1 = some pool' ∧
            matters pool'.stakingToken := by
        intro leaver member
        rw [Book.exited_pool]
        split
        · exact ⟨_, rfl, important⟩
        · exact existing leaver (List.mem_cons_of_mem _ member)
      obtain ⟨more, book', w', onward, made, solvent', left, received⟩ :=
        ih distinct' solventU staking' existing'
      have called : History (around.setting unrestricted) timestamp w
          [{ context := { caller := account, blocktime := timestamp }
             entry := Call.emergencyWithdraw poolId, before := w, after := u }] timestamp u :=
        .call _ _ .start (UInt64.le_refl _) trivial run
      refine ⟨_, book', w', called.trans onward, ?_, solvent', left.cons found lowered others, ?_⟩
      · rw [calls_append, made]
        rfl
      · intro token receiver
        have moves := moved token (.account receiver)
        simp only [reduceCtorEq, and_false, if_false, add_zero, Address.account.injEq] at moves
        have own : book.returnedTo token receiver (poolId, account) =
            if pool.stakingToken = token ∧ account = receiver then
              (book.user (recordKey account poolId)).amount.toNat else 0 := by
          rw [Book.returnedTo]
          simp only [found]
          rfl
        have same : (leaving.map ((book.exited poolId account pool totalStaked).returnedTo
            token receiver)).sum = (leaving.map (book.returnedTo token receiver)).sum := by
          congr 1
          apply List.map_congr_left
          intro leaver member
          exact Book.exited_returnedTo found (others leaver member) token receiver
        rw [received, same, List.map_cons, List.sum_cons, own]
        simp only [eq_comm (a := pool.stakingToken), eq_comm (a := account)]
        split at moves <;> rename_i here
        · rw [if_pos here]
          omega
        · rw [if_neg here]
          omega

end Exits

/-! ## From the storage -/

section Runs

variable {E : Type} {around : Surroundings E} {package : ContractPackageHash}
  {balances : E → Balances} {allowances : E → Allowances} {admin : AccountHash}
  {start timestamp : UInt64} {outside : E} {moment : Moment E}

theorem Represents.stakeIn_eq_ite {storage : Storage} {book : Book} {account : AccountHash}
    {poolId : UInt64} (represents : Represents storage book) :
    stakeIn account poolId storage =
      if poolId ≤ book.index then (book.user (recordKey account poolId)).amount.toNat else 0 := by
  split
  · rename_i valid
    rw [stakeIn_eq represents valid, recordKey, Book.user_eq]
  · rename_i beyond
    cases read : getUserInfoForPool { caller := account, blocktime := 0 } poolId storage with
    | error error => simp [stakeIn, read]
    | ok user => exact absurd (represents.getUserInfoForPool_eq_ok.mp read).1 beyond

theorem totalIn_of_none {storage : Storage} {book : Book} {poolId : UInt64}
    (represents : Represents storage book) (absent : book.pool poolId = none) :
    totalIn poolId storage = 0 := by
  cases read : getPool poolId storage with
  | error error => simp [totalIn, read]
  | ok pool =>
      have found := (represents.getPool_eq_ok.mp read).2
      rw [absent] at found
      cases found

theorem stakeOf_installed {leaver : UInt64 × AccountHash} :
    stakeOf (.installed admin) leaver = 0 := by
  cases read : getUserInfoForPool { caller := leaver.2, blocktime := 0 } leaver.1
      (.installed admin) with
  | error error => simp [stakeOf, stakeIn, read]
  | ok user => exact absurd read getUserInfo_installed

/-! What the book says of those who leave and of those who stay. -/

section Leaving

variable {storage storage' : Storage} {book book' : Book}
  {leaving : List (UInt64 × AccountHash)}

theorem Represents.stakeOf_eq (represents : Represents storage book)
    {leaver : UInt64 × AccountHash} (valid : leaver.1 ≤ book.index) :
    stakeOf storage leaver = book.stakeOf leaver := by
  rw [stakeOf, represents.stakeIn_eq_ite, if_pos valid]
  rfl

theorem Represents.returnedTo_eq (represents : Represents storage book)
    {leaver : UInt64 × AccountHash} (valid : leaver.1 ≤ book.index) (token : ContractHash)
    (account : AccountHash) :
    returnedTo token account storage leaver = book.returnedTo token account leaver := by
  cases found : book.pool leaver.1 with
  | some pool =>
      have read := represents.getPool_eq_ok.mpr ⟨valid, found⟩
      simp only [returnedTo, Book.returnedTo, read, found, represents.stakeOf_eq valid]
  | none =>
      cases read : getPool leaver.1 storage with
      | error error => simp only [returnedTo, Book.returnedTo, read, found]
      | ok pool =>
          have stored := (represents.getPool_eq_ok.mp read).2
          rw [found] at stored
          cases stored

/-- Whoever has left reads an empty record, and everybody else reads what was there. -/
theorem Left.getUserInfoForPool_eq (left : Left leaving book book')
    (represents : Represents storage book) (represents' : Represents storage' book')
    (valid : ∀ leaver ∈ leaving, leaver.1 ≤ book.index) (context : Context) (poolId : UInt64) :
    getUserInfoForPool context poolId storage' =
      if recordKey context.caller poolId ∈ leaving.map leaverKey then
        .ok { amount := U256.zero, rewardDebt := U256.zero }
      else getUserInfoForPool context poolId storage := by
  rw [represents.getUserInfoForPool_eq, represents'.getUserInfoForPool_eq, left.index,
    left.records]
  by_cases gone : recordKey context.caller poolId ∈ leaving.map leaverKey
  · obtain ⟨leaver, member, same⟩ := List.mem_map.mp gone
    have samePool : leaver.1 = poolId := congrArg Prod.snd same
    rw [if_pos gone, if_pos gone, if_pos (samePool ▸ valid leaver member)]
  · rw [if_neg gone, if_neg gone]

/-- The total of a pool is lower by the stakes that have left it. -/
theorem Left.totalIn_before (left : Left leaving book book')
    (represents : Represents storage book) (represents' : Represents storage' book')
    (below : ∀ poolId pool, book.pool poolId = some pool → poolId ≤ book.index)
    (existing : ∀ leaver ∈ leaving, ∃ pool, book.pool leaver.1 = some pool)
    (poolId : UInt64) :
    totalIn poolId storage = totalIn poolId storage' + book.takenFrom poolId leaving := by
  cases stored : book.pool poolId with
  | some pool =>
      obtain ⟨pool', stored', -, total⟩ := left.pools poolId pool stored
      have valid := below poolId pool stored
      rw [totalIn_eq represents valid stored,
        totalIn_eq represents' (left.index ▸ valid) stored']
      exact total
  | none =>
      have nothing : book.takenFrom poolId leaving = 0 := by
        apply List.sum_eq_zero
        intro amount member
        obtain ⟨leaver, isLeaving, rfl⟩ := List.mem_map.mp member
        obtain ⟨pool, found⟩ := existing leaver isLeaving
        rw [if_neg]
        intro same
        rw [same, stored] at found
        cases found
      rw [nothing, totalIn_of_none represents stored,
        totalIn_of_none represents' (left.absent poolId stored)]

end Leaving

/-- A state of a run in which the contract has the stakes is a solvent one, and whoever has
a stake has it in a stored pool. -/
theorem Run.solvent (package : ContractPackageHash)
    (run : Run around unrestricted (installed admin start outside) moment)
    (few : (poolsCreated moment.world.log).length < 2 ^ 64)
    (supplied : SupplyWithin (2 ^ 256 - 1) (balances moment.world.outside)) :
    (∃ admin', moment.world.storage = .installed admin') ∨
      ∃ book, Solvent package balances (fun token => stakedIn token moment.world.storage ≤
          balances moment.world.outside token (.contract package)) book moment.world ∧
        ∀ leaver, 0 < stakeOf moment.world.storage leaver → leaver.1 ≤ book.index ∧
          ∃ pool, book.pool leaver.1 = some pool := by
  rcases run.sound few with fresh | ⟨book, represents, sound, present, absent⟩
  · exact .inl fresh
  refine .inr ⟨book, ⟨represents, fun found => (sound _ _ found).1, ?_, ?_, ?_⟩, ?_⟩
  · intro poolId pool found
    obtain ⟨-, first, agrees⟩ := sound poolId pool found
    exact agrees.staked
  · intro token has
    rw [← represents.stakedIn_eq]
    exact has
  · intro token account
    have pair : balances moment.world.outside token (.contract package) +
        balances moment.world.outside token (.account account) ≤ 2 ^ 256 - 1 :=
      supplied.pair (by simp)
    omega
  · intro leaver some
    obtain ⟨poolId, account⟩ := leaver
    rw [stakeOf, represents.stakeIn_eq_ite] at some
    split at some
    · rename_i valid
      refine ⟨valid, present poolId ?_⟩
      by_contra notBelow
      rw [recordKey, Book.user_eq, absent poolId (UInt64.not_lt.mp notBelow)] at some
      cases some
    · cases some

/-- In every state of every run let some stakers be chosen in any order, each with a record
of its own, and let the contract have what is staked.  Then they can leave in this order at
any later time: every emergency withdrawal goes through, every account receives exactly
what its stakes in each token were, the records of those who left are empty and no others
are touched, and each pool's total is lower by the stakes that left it. -/
theorem everyone_can_leave (full : FullErc20 package around.answer balances allowances)
    (run : Run around unrestricted (installed admin start outside) moment)
    (few : (poolsCreated moment.world.log).length < 2 ^ 64)
    (supplied : SupplyWithin (2 ^ 256 - 1) (balances moment.world.outside))
    (le : moment.now ≤ timestamp) {leaving : List (UInt64 × AccountHash)}
    (distinct : (leaving.map leaverKey).Nodup)
    (staking : ∀ leaver ∈ leaving, 0 < stakeOf moment.world.storage leaver)
    (covered : ∀ leaver ∈ leaving, OnStored leaver.1 moment.world.storage fun pool =>
      stakedIn pool.stakingToken moment.world.storage ≤
        balances moment.world.outside pool.stakingToken (.contract package)) :
    ∃ steps w, History (around.setting unrestricted) moment.now moment.world steps timestamp w ∧
      calls steps = leaving.map (exitBy timestamp) ∧
      (∀ token account, balances w.outside token (.account account) =
        balances moment.world.outside token (.account account) +
          (leaving.map (returnedTo token account moment.world.storage)).sum) ∧
      (∀ context poolId, getUserInfoForPool context poolId w.storage =
        if recordKey context.caller poolId ∈ leaving.map leaverKey then
          .ok { amount := U256.zero, rewardDebt := U256.zero }
        else getUserInfoForPool context poolId moment.world.storage) ∧
      ∀ poolId, totalIn poolId moment.world.storage = totalIn poolId w.storage +
        (leaving.map fun leaver =>
          if leaver.1 = poolId then stakeOf moment.world.storage leaver else 0).sum := by
  rcases run.solvent package few supplied with ⟨admin', fresh⟩ | ⟨book, solvent, stored⟩
  · -- nobody has a stake yet
    have nobody : leaving = [] := by
      apply List.eq_nil_iff_forall_not_mem.mpr
      intro leaver member
      have some := staking leaver member
      rw [fresh, stakeOf_installed] at some
      cases some
    subst nobody
    exact ⟨[], moment.world, History.start.wait le, rfl, by simp, by simp, by simp⟩
  have represents := solvent.represents
  have valid : ∀ leaver ∈ leaving, leaver.1 ≤ book.index :=
    fun leaver member => (stored leaver (staking leaver member)).1
  have existing : ∀ leaver ∈ leaving, ∃ pool, book.pool leaver.1 = some pool :=
    fun leaver member => (stored leaver (staking leaver member)).2
  have staking' : ∀ leaver ∈ leaving, 0 < book.stakeOf leaver := by
    intro leaver member
    rw [← represents.stakeOf_eq (valid leaver member)]
    exact staking leaver member
  obtain ⟨steps, book', w, onward, made, solvent', left, received⟩ :=
    solvent.exitAll full distinct staking' fun leaver member =>
      (existing leaver member).imp fun _ found => ⟨found, (covered leaver member).of_getPool
        (represents.getPool_eq_ok.mpr ⟨valid leaver member, found⟩)⟩
  have waited : History (around.setting unrestricted) moment.now moment.world [] timestamp
      moment.world := History.start.wait le
  refine ⟨steps, w, waited.trans onward, made, ?_,
    left.getUserInfoForPool_eq represents solvent'.represents valid, ?_⟩
  · intro token account
    rw [received, List.map_congr_left fun leaver member =>
      (represents.returnedTo_eq (valid leaver member) token account).symm]
  · intro poolId
    have taken : (leaving.map fun leaver =>
        if leaver.1 = poolId then stakeOf moment.world.storage leaver else 0).sum =
          book.takenFrom poolId leaving := by
      rw [Book.takenFrom, List.map_congr_left]
      intro leaver member
      rw [represents.stakeOf_eq (valid leaver member)]
    rw [taken]
    exact left.totalIn_before represents solvent'.represents
      (fun _ _ found => UInt64.le_of_lt (solvent.below found)) existing poolId

end Runs

section Sample

open Sample

/-- Tokens whose balances may change in any way between the calls. -/
def restless : Surroundings Erc20Ledger where
  answer := around.answer
  drift := fun _ _ => True

/-- Two stakes in a pool that ends when it starts. -/
def crowded : Moment Erc20Ledger :=
  after unrestricted
    [setUp, (10, owner, .addPool tokenA tokenA 100 100 18 (units 1000)),
      (20, staker 1, .deposit (units 10) 0), (30, staker 2, .deposit (units 5) 0)]
    opening (by decide +kernel)

/-- The contract has the stakes and nothing else, and the stakers have nothing. -/
def stakesOnly : Erc20Ledger where
  balance := fun _ holder => if holder = .contract package then 15 else 0
  allowance := fun _ _ _ => 0

private theorem supply_stakesOnly : SupplyWithin (2 ^ 256 - 1) stakesOnly.balance := by
  intro token holders
  simp only [stakesOnly]
  rw [Finset.sum_ite_eq']
  split <;> omega

/-- The records of `crowded` after the rewards have gone. -/
def emptied : Moment Erc20Ledger where
  now := crowded.now
  world := { crowded.world with outside := stakesOnly }

private theorem run_emptied : Run restless unrestricted opening emptied := by
  have run : Run restless unrestricted opening crowded := by
    have replays : replayed unrestricted
        [setUp, (10, owner, .addPool tokenA tokenA 100 100 18 (units 1000)),
          (20, staker 1, .deposit (units 10) 0), (30, staker 2, .deposit (units 5) 0)]
        opening = some crowded := (Option.some_get _).symm
    unfold replayed at replays
    exact Run.start.replayed replays
  exact run.drift trivial

/-- No reward can be paid any more, but both stakers leave with their stakes. -/
theorem everyone_can_leave_emptied :
    ∃ steps w, History (restless.setting unrestricted) emptied.now emptied.world steps 150 w ∧
      calls steps = [exitBy 150 (0, staker 2), exitBy 150 (0, staker 1)] ∧
      w.outside.balance tokenA (.account (staker 1)) = 10 ∧
      w.outside.balance tokenA (.account (staker 2)) = 5 ∧ totalIn 0 w.storage = 0 := by
  have soon : emptied.now ≤ 150 := by decide +kernel
  have distinct : ([(0, staker 2), (0, staker 1)].map leaverKey).Nodup := by decide +kernel
  obtain ⟨steps, w, history, made, received, -, totals⟩ :=
    everyone_can_leave (Erc20Ledger.full package) run_emptied (by decide +kernel)
      supply_stakesOnly soon distinct (by decide +kernel) (by decide +kernel)
  refine ⟨steps, w, history, made, ?_, ?_, ?_⟩
  · rw [received]
    decide +kernel
  · rw [received]
    decide +kernel
  · have whole : totalIn 0 emptied.world.storage =
        ([(0, staker 2), (0, staker 1)].map fun leaver =>
          if leaver.1 = 0 then stakeOf emptied.world.storage leaver else 0).sum := by
      decide +kernel
    have total := totals 0
    omega

end Sample

end CasperContracts.Staking
