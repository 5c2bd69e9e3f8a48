import CasperContracts.Basis.CallBacks
import CasperContracts.Staking.Payments

/-!
# Tokens that call back

A token other than `T` may run entry points of the contract inside a request,
nested to any depth.  Every settlement reads its record before its requests
and writes it back after them, so a nested payout works on a record the outer
one has already counted.  `principalGuard` is the condition under which the
principal of the pools in `T` is safe all the same.
-/

namespace CasperContracts.Staking

open CasperContracts.Basis Host Prog

/-! ## Principal in the log -/

def depositedBy (poolId : UInt64) (account : AccountHash) : List Event → Nat :=
  sumOver fun event =>
    match event with
    | .deposited pool payer amount =>
        if pool = poolId ∧ payer = account then amount.toNat else 0
    | _ => 0

/-- The principal paid out to an account by withdrawals and emergency
withdrawals from a pool. -/
def paidOutTo (poolId : UInt64) (account : AccountHash) : List Event → Nat :=
  sumOver fun event =>
    match event with
    | .withdrawn pool payee amount _ =>
        if pool = poolId ∧ payee = account then amount.toNat else 0
    | .emergencyWithdrawn pool payee amount =>
        if pool = poolId ∧ payee = account then amount.toNat else 0
    | _ => 0

def depositorsOf (poolId : UInt64) (log : List Event) : List AccountHash :=
  log.filterMap fun event =>
    match event with
    | .deposited pool payer _ => if pool = poolId then some payer else none
    | _ => none

/-- Nobody else has deposited into the record of the account. -/
def SoleHolder (poolId : UInt64) (account : AccountHash) (log : List Event) : Prop :=
  ∀ other ∈ depositorsOf poolId log, other.keyPrefix = account.keyPrefix → other = account

instance (poolId : UInt64) (account : AccountHash) (log : List Event) :
    Decidable (SoleHolder poolId account log) :=
  inferInstanceAs (Decidable (∀ other ∈ depositorsOf poolId log, _))

section Principal

variable {poolId : UInt64} {account caller : AccountHash} {log more : List Event}

@[simp] theorem depositedBy_append :
    depositedBy poolId account (log ++ more) =
      depositedBy poolId account log + depositedBy poolId account more :=
  sumOver_append _ _ _

@[simp] theorem paidOutTo_append :
    paidOutTo poolId account (log ++ more) =
      paidOutTo poolId account log + paidOutTo poolId account more :=
  sumOver_append _ _ _

@[simp] theorem depositorsOf_append :
    depositorsOf poolId (log ++ more) = depositorsOf poolId log ++ depositorsOf poolId more :=
  List.filterMap_append

theorem SoleHolder.earlier (sole : SoleHolder poolId account (log ++ more)) :
    SoleHolder poolId account log := by
  intro other mem
  exact sole other (by simp [mem])

theorem depositedBy_eq_zero (absent : account ∉ depositorsOf poolId log) :
    depositedBy poolId account log = 0 := by
  induction log with
  | nil => rfl
  | cons event log ih =>
      rw [← List.singleton_append, depositorsOf_append, List.mem_append, not_or] at absent
      rw [← List.singleton_append, depositedBy_append, ih absent.2, Nat.add_zero]
      cases event with
      | deposited pool payer amount =>
          have other : ¬ (pool = poolId ∧ payer = account) := by
            intro given
            obtain ⟨rfl, rfl⟩ := given
            exact absent.1 (by simp [depositorsOf])
          simp [depositedBy, sumOver, other]
      | _ => rfl

@[simp] theorem paidOutTo_creditEvents {other : UInt64} {credit : Option Credit} :
    paidOutTo poolId account (creditEvents other credit) = 0 := by
  cases credit <;> rfl

/-- The principal of an account whose record stands at `amount`. -/
structure Secured (poolId : UInt64) (account : AccountHash) (amount : Nat)
    (log : List Event) : Prop where
  paid : paidOutTo poolId account log ≤ depositedBy poolId account log
  kept : SoleHolder poolId account log →
    paidOutTo poolId account log + amount ≤ depositedBy poolId account log

variable {before after amount : Nat}

theorem Secured.extend (secured : Secured poolId account amount log)
    (unpaid : paidOutTo poolId account more = 0) :
    Secured poolId account amount (log ++ more) where
  paid := by
    have paid := secured.paid
    simp only [paidOutTo_append, depositedBy_append]
    omega
  kept := by
    intro sole
    have kept := secured.kept sole.earlier
    simp only [paidOutTo_append, depositedBy_append]
    omega

variable {between events : List Event}

/-- A deposit on a record that was read before `between` happened. -/
theorem Secured.deposit (secured : Secured poolId account before log)
    (shared : account.keyPrefix = caller.keyPrefix)
    (unpaid : paidOutTo poolId account between = 0)
    (pays : paidOutTo poolId account events = 0)
    (deposits : depositedBy poolId caller events = amount)
    (depositor : caller ∈ depositorsOf poolId events)
    (total : after = amount + before) :
    Secured poolId account after (log ++ between ++ events) where
  paid := ((secured.extend unpaid).extend pays).paid
  kept := by
    intro sole
    have same : caller = account := sole caller (by simp [depositor]) shared.symm
    subst same
    have kept := secured.kept sole.earlier.earlier
    simp only [paidOutTo_append, depositedBy_append]
    omega

/-- A payout from a record that was read before `between` happened, to the one
account that deposited into it. -/
theorem Secured.payout (secured : Secured poolId account before log)
    (own : Secured poolId caller before log) (sole : SoleHolder poolId caller log)
    (shared : account.keyPrefix = caller.keyPrefix)
    (unpaid : paidOutTo poolId account between = 0)
    (pays : paidOutTo poolId account events = if caller = account then amount else 0)
    (nonzero : 0 < amount) (total : before = after + amount) :
    Secured poolId account after (log ++ between ++ events) := by
  by_cases same : caller = account
  · subst same
    rw [if_pos rfl] at pays
    have kept := own.kept sole
    constructor
    · simp only [paidOutTo_append, depositedBy_append]
      omega
    · intro _
      simp only [paidOutTo_append, depositedBy_append]
      omega
  · rw [if_neg same] at pays
    refine ⟨((secured.extend unpaid).extend pays).paid, fun soleAfter => ?_⟩
    -- the record would hold a stake of the caller, which never deposited
    have absent : caller ∉ depositorsOf poolId log := by
      intro mem
      exact same (soleAfter caller (by simp [mem]) shared.symm)
    have kept := own.kept sole
    rw [depositedBy_eq_zero absent] at kept
    omega

end Principal

/-! ## The book between two points of a nested run -/

def Book.inToken (book : Book) (T : ContractHash) (poolId : UInt64) : Prop :=
  ∀ pool, book.pool poolId = some pool → pool.stakingToken = T

theorem Book.inToken_of_pool {book : Book} {T : ContractHash} {poolId : UInt64}
    {pool : StakePool} (found : book.pool poolId = some pool)
    (token : pool.stakingToken = T) : book.inToken T poolId := by
  intro pool' found'
  rw [found, Option.some.injEq] at found'
  exact found' ▸ token

/-- The principal of every account is secured in every pool in `T`. -/
def Principal (T : ContractHash) (book : Book) (log : List Event) : Prop :=
  ∀ poolId, book.inToken T poolId → ∀ account,
    Secured poolId account (book.user (recordKey account poolId)).amount.toNat log

/-- The pool whose caller's record a call reads before its requests and writes
back after them. -/
def Call.settles : Call → Option UInt64
  | .deposit _ poolId => some poolId
  | .withdraw _ poolId => some poolId
  | .emergencyWithdraw poolId => some poolId
  | _ => none

def InProgress (poolId : UInt64) (stack : List Call) : Prop :=
  some poolId ∈ stack.map Call.settles

instance (poolId : UInt64) (stack : List Call) : Decidable (InProgress poolId stack) :=
  inferInstanceAs (Decidable (_ ∈ _))

/-- What may happen to book and log while the calls of `stack` are in progress. -/
structure Later (T : ContractHash) (stack : List Call) (book : Book) (log : List Event)
    (book' : Book) (log' : List Event) : Prop where
  selfHash : book'.selfHash = book.selfHash
  tokens : ∀ poolId pool, book.pool poolId = some pool →
    ∃ pool', book'.pool poolId = some pool' ∧ pool'.stakingToken = pool.stakingToken
  log : ∃ more, log' = log ++ more ∧
    ∀ poolId pool, book.pool poolId = some pool → pool.stakingToken = T →
      InProgress poolId stack → ∀ account, paidOutTo poolId account more = 0

section Steps

variable {T : ContractHash} {stack : List Call} {entry : Call}
variable {book book' book'' : Book} {log log' log'' more events : List Event}
variable {poolId : UInt64} {pool pool' : StakePool}

theorem Principal.extend (principal : Principal T book log)
    (unpaid : ∀ poolId account, paidOutTo poolId account more = 0) :
    Principal T book (log ++ more) :=
  fun poolId inT account => (principal poolId inT account).extend (unpaid poolId account)

/-- Accounts with the same key prefix share a record. -/
theorem Principal.shared {account caller : AccountHash} (principal : Principal T book log)
    (inT : book.inToken T poolId) (shared : account.keyPrefix = caller.keyPrefix) :
    Secured poolId account (book.user (recordKey caller poolId)).amount.toNat log := by
  have secured := principal poolId inT account
  rw [recordKey, shared] at secured
  exact secured

theorem Principal.putPool (pool' : StakePool) (principal : Principal T book log)
    (sameToken : ∀ pool, book.pool poolId = some pool →
      pool.stakingToken = pool'.stakingToken) :
    Principal T (book.putPool poolId pool') log := by
  intro other inT account
  refine principal other (fun pool found => ?_) account
  by_cases same : other = poolId
  · subst same
    rw [sameToken pool found]
    exact inT pool' (Book.putPool_pool_same _ _ _)
  · exact inT pool (by rw [Book.putPool_pool, if_neg same, found])

theorem Principal.putUser {caller : AccountHash} {user' : UserInfo}
    (principal : Principal T book log)
    (others : ∀ other account, other ≠ poolId ∨ account ≠ caller →
      paidOutTo other account events = 0)
    (own : book.inToken T poolId → ∀ account, account.keyPrefix = caller.keyPrefix →
      Secured poolId account user'.amount.toNat (log ++ events)) :
    Principal T (book.putUser (recordKey caller poolId) user') (log ++ events) := by
  intro other inT account
  rw [Book.putUser_user]
  by_cases written : recordKey account other = recordKey caller poolId
  · obtain ⟨shared, same⟩ := Prod.mk.inj written
    subst same
    rw [if_pos written]
    exact own inT account shared
  · rw [if_neg written]
    refine (principal other inT account).extend (others other account ?_)
    by_cases same : other = poolId
    · right
      intro same
      subst same
      exact written (by rw [same])
    · exact .inl same

theorem Later.refl : Later T stack book log book log where
  selfHash := rfl
  tokens := fun _ pool found => ⟨pool, found, rfl⟩
  log := ⟨[], by simp, fun _ _ _ _ _ _ => rfl⟩

theorem Later.trans (first : Later T stack book log book' log')
    (second : Later T stack book' log' book'' log'') :
    Later T stack book log book'' log'' where
  selfHash := second.selfHash.trans first.selfHash
  tokens := by
    intro poolId pool found
    obtain ⟨pool', found', same⟩ := first.tokens poolId pool found
    obtain ⟨pool'', found'', same'⟩ := second.tokens poolId pool' found'
    exact ⟨pool'', found'', same'.trans same⟩
  log := by
    obtain ⟨more, rfl, unpaid⟩ := first.log
    obtain ⟨more', rfl, unpaid'⟩ := second.log
    refine ⟨more ++ more', List.append_assoc _ _ _, fun poolId pool found inT busy account => ?_⟩
    obtain ⟨pool', found', same⟩ := first.tokens poolId pool found
    simp [unpaid poolId pool found inT busy account,
      unpaid' poolId pool' found' (same.trans inT) busy account]

theorem Later.sameToken (later : Later T stack book log book' log')
    (found : book.pool poolId = some pool)
    (sameToken : pool'.stakingToken = pool.stakingToken) :
    ∀ now, book'.pool poolId = some now → now.stakingToken = pool'.stakingToken := by
  intro now foundNow
  obtain ⟨now', found', same⟩ := later.tokens poolId pool found
  rw [foundNow, Option.some.injEq] at found'
  subst found'
  rw [same, sameToken]

/-- What holds while more calls are in progress holds while fewer are. -/
theorem Later.pop (later : Later T (entry :: stack) book log book' log') :
    Later T stack book log book' log' where
  selfHash := later.selfHash
  tokens := later.tokens
  log := by
    obtain ⟨more, extended, unpaid⟩ := later.log
    refine ⟨more, extended, fun poolId pool found inT busy => ?_⟩
    exact unpaid poolId pool found inT (List.mem_cons_of_mem _ busy)

theorem Later.extend
    (unpaid : ∀ poolId pool, book.pool poolId = some pool → pool.stakingToken = T →
      InProgress poolId stack → ∀ account, paidOutTo poolId account more = 0) :
    Later T stack book log book (log ++ more) where
  selfHash := rfl
  tokens := fun _ pool found => ⟨pool, found, rfl⟩
  log := ⟨more, rfl, unpaid⟩

theorem Later.putUser {key : RecordKey} {user' : UserInfo}
    (later : Later T stack book log book' log') :
    Later T stack book log (book'.putUser key user') log' where
  selfHash := later.selfHash
  tokens := later.tokens
  log := later.log

theorem Later.putPool (pool' : StakePool)
    (sameToken : ∀ pool, book.pool poolId = some pool →
      pool.stakingToken = pool'.stakingToken) :
    Later T stack book log (book.putPool poolId pool') log where
  selfHash := rfl
  tokens := by
    intro other pool found
    rw [Book.putPool_pool]
    by_cases same : other = poolId
    · subst same
      exact ⟨pool', by simp, (sameToken pool found).symm⟩
    · exact ⟨pool, by simp [same, found], rfl⟩
  log := Later.refl.log

end Steps

/-! ## One entry point below others -/

section Entries

variable {E : Type} {T : ContractHash} {context : Context} {stack : List Call}
variable {entry : Call} {poolId : UInt64}
variable {respond : TokenCall → StakeWorld E → StakeWorld E → Prop}
variable {u w w' : StakeWorld E} {book bookU : Book}

/-- Principal that is secured before stays secured. -/
def Keeps (T : ContractHash) (stack : List Call) (w w' : StakeWorld E) : Prop :=
  ∀ book, Represents w.storage book → Principal T book w.log →
    ∃ book', Represents w'.storage book' ∧ Principal T book' w'.log ∧
      Later T stack book w.log book' w'.log

/-- Principal of `T` is paid out to the only depositor of a record, while no
other settlement on the pool is in progress, and a new pool takes no other
pool's place. -/
def principalGuard (T : ContractHash) (context : Context) (stack : List Call)
    (w : StakeWorld E) : Call → Prop
  | .withdraw _ poolId | .emergencyWithdraw poolId =>
      OnStored poolId w.storage fun pool => pool.stakingToken = T →
        ¬ InProgress poolId stack ∧ SoleHolder poolId context.caller w.log
  | .addPool _ _ _ _ _ _ => Vacant w.storage
  | _ => True

instance (stack : List Call) (w : StakeWorld E) :
    (entry : Call) → Decidable (principalGuard T context stack w entry)
  | .withdraw _ poolId | .emergencyWithdraw poolId =>
      inferInstanceAs (Decidable (OnStored poolId w.storage fun pool =>
        pool.stakingToken = T →
          ¬ InProgress poolId stack ∧ SoleHolder poolId context.caller w.log))
  | .addPool _ _ _ _ _ _ => inferInstanceAs (Decidable (Vacant w.storage))
  | .init _ | .deposit _ _ | .stopReward _ | .saveMe _ _ | .setAdmin _ => .isTrue trivial

/-- The second half of a settlement, on whatever book it finds. -/
private theorem writeBack {pool : StakePool} (pool' : StakePool) {user' : UserInfo}
    {events : List Event} {storage' : Storage}
    (found : book.pool poolId = some pool)
    (sameToken : pool'.stakingToken = pool.stakingToken)
    (settles : entry.settles = some poolId)
    (represents : Represents u.storage bookU) (principal : Principal T bookU u.log)
    (later : Later T (entry :: stack) book w.log bookU u.log)
    (written : updateStorage context pool' user' poolId u.storage = .ok storage')
    (others : ∀ other account, other ≠ poolId ∨ account ≠ context.caller →
      paidOutTo other account events = 0)
    (alone : pool.stakingToken = T → InProgress poolId stack →
      ∀ account, paidOutTo poolId account events = 0)
    (own : pool.stakingToken = T → ∀ account between,
      account.keyPrefix = context.caller.keyPrefix →
      paidOutTo poolId account between = 0 →
      Secured poolId account user'.amount.toNat (w.log ++ between ++ events)) :
    ∃ book', Represents storage' book' ∧ Principal T book' (u.log ++ events) ∧
      Later T stack book w.log book' (u.log ++ events) := by
  have keepsToken := later.sameToken found sameToken
  refine ⟨_, represents.updateStorage_eq_ok written, ?_, ?_⟩
  · refine (principal.putPool pool' keepsToken).putUser others fun inT account shared => ?_
    have inT' : pool.stakingToken = T := by
      rw [← sameToken]
      exact inT pool' (Book.putPool_pool_same _ _ _)
    obtain ⟨between, log, unpaid⟩ := later.log
    rw [log]
    exact own inT' account between shared
      (unpaid poolId pool found inT' (by simp [InProgress, settles]) account)
  · refine (later.pop.trans (.putPool pool' keepsToken)).trans (Later.putUser (.extend ?_))
    intro other now foundNow inT busy account
    by_cases same : other = poolId
    · subst same
      rw [Book.putPool_pool_same, Option.some.injEq] at foundNow
      subst foundNow
      exact alone (sameToken.symm.trans inT) busy account
    · exact others other account (.inl same)

/-- Events of a settlement pay principal only to the caller and only from their
pool. -/
private theorem Settled.pays_others {selfHash : ContractPackageHash}
    {accrued : StakePool} {user user' : UserInfo} {requests : List TokenCall}
    {events : List Event}
    (settled : Settled context selfHash poolId accrued user user' entry requests events)
    (other : UInt64) (account : AccountHash)
    (different : other ≠ poolId ∨ account ≠ context.caller) :
    paidOutTo other account events = 0 := by
  have apart : ¬ (poolId = other ∧ context.caller = account) := by
    intro given
    obtain ⟨rfl, rfl⟩ := given
    simp at different
  cases settled <;> simp [paidOutTo, sumOver, apart]

private theorem SettlePhases.keeps
    (answers : ∀ c v v', respond c v v' → Keeps T (entry :: stack) v v')
    (guarded : principalGuard T context stack w entry)
    (represents : Represents w.storage book) (principal : Principal T book w.log)
    (phases : SettlePhases respond context book poolId entry w w') :
    ∃ book', Represents w'.storage book' ∧ Principal T book' w'.log ∧
      Later T stack book w.log book' w'.log := by
  cases phases with
  | @intro pool accrued credit user' totalStaked requests events u storage' valid found
      accrual settled debt staked chain written after =>
      subst after
      have sameToken : accrued.stakingToken = pool.stakingToken :=
        congrArg Terms.stakingToken accrual.terms_eq
      have inT (token : pool.stakingToken = T) : book.inToken T poolId :=
        Book.inToken_of_pool found token
      have noPrincipal : ∀ other account,
          paidOutTo other account (creditEvents poolId credit) = 0 :=
        fun _ _ => paidOutTo_creditEvents
      have asked : Kept Represents (Principal T) (Later T) (entry :: stack)
          { w with log := w.log ++ creditEvents poolId credit } u :=
        .of_chain .refl .trans answers chain
      obtain ⟨bookU, representsU, principalU, later⟩ :=
        asked book represents (principal.extend noPrincipal)
      replace later := (Later.extend fun _ _ _ _ _ => noPrincipal _).trans later
      have others := settled.pays_others
      cases settled with
      | first nonzero opened fresh total =>
          refine writeBack { accrued with totalStaked } found sameToken rfl representsU
            principalU later written others
            (fun _ _ _ => rfl) fun token account between shared unpaid => ?_
          exact (principal.shared (inT token) shared).deposit shared unpaid rfl
            (by simp [depositedBy, sumOver]) (by simp [depositorsOf]) total
      | topUp nonzero opened staking total pays payment =>
          refine writeBack { accrued with totalStaked } found sameToken rfl representsU
            principalU later written others
            (fun _ _ _ => rfl) fun token account between shared unpaid => ?_
          exact (principal.shared (inT token) shared).deposit shared unpaid rfl
            (by simp [depositedBy, sumOver]) (by simp [depositorsOf]) total
      | withdraw nonzero total pays payment =>
          have guard (token : pool.stakingToken = T) :=
            guarded.of_getPool (represents.getPool_eq_ok.mpr ⟨valid, found⟩) token
          refine writeBack { accrued with totalStaked } found sameToken rfl representsU
            principalU later written others
            (fun token busy => absurd busy (guard token).1)
            fun token account between shared unpaid => ?_
          exact (principal.shared (inT token) shared).payout
            (principal poolId (inT token) context.caller) (guard token).2 shared unpaid
            (by simp [paidOutTo, sumOver]) nonzero total

/-- What the requests of a deposit may do to the contract's own hash: nothing. -/
private theorem Keeps.selfHash (keeps : Keeps T stack w w')
    (represents : Represents w.storage book) (principal : Principal T book w.log) :
    w'.storage.selfContractHash = w.storage.selfContractHash := by
  obtain ⟨book', represents', -, later⟩ := keeps book represents principal
  rw [represents'.selfHash, later.selfHash, represents.selfHash]

private theorem keeps_of_addPool {stakingToken rewardToken : ContractHash}
    {startTime endTime precision : UInt64} {totalReward : U256}
    (answers : ∀ c v v', respond c v v' → Keeps T (entry :: stack) v v')
    (vacant : Vacant w.storage)
    (run : Runs respond (addPool context stakingToken rewardToken startTime endTime
      precision totalReward) w () w') : Keeps T stack w w' := by
  intro book represents principal
  obtain ⟨pool, storage, u, new, -, written, answered, rfl⟩ := runs_addPool represents run
  have sameToken : ∀ old, book.pool book.index = some old →
      old.stakingToken = pool.stakingToken := by
    simp [vacant.absent represents]
  obtain ⟨bookU, representsU, principalU, later⟩ :=
    answers _ _ _ answered _ (represents.putPool_eq_ok written)
      (principal.putPool pool sameToken)
  refine ⟨_, representsU.setIndex _, principalU.extend fun _ _ => rfl, ?_⟩
  have created : Later T stack book w.log bookU u.log :=
    (Later.putPool pool sameToken).trans later.pop
  exact created.trans ⟨rfl, fun _ pool found => ⟨pool, found, rfl⟩,
    [_], rfl, fun _ _ _ _ _ _ => rfl⟩

private theorem keeps_of_emergencyWithdraw
    (answers : ∀ c v v', respond c v v' →
      Keeps T (.emergencyWithdraw poolId :: stack) v v')
    (guarded : principalGuard T context stack w (.emergencyWithdraw poolId))
    (run : Runs respond (emergencyWithdraw context poolId) w () w') :
    Keeps T stack w w' := by
  intro book represents principal
  obtain ⟨pool, amount, totalStaked, u, storage', valid, found, whole, nonzero,
    staked, answered, written, rfl⟩ := runs_emergencyWithdraw represents run
  have guard (token : pool.stakingToken = T) :=
    guarded.of_getPool (represents.getPool_eq_ok.mpr ⟨valid, found⟩) token
  obtain ⟨bookU, representsU, principalU, later⟩ :=
    answers _ _ _ answered book represents principal
  refine writeBack { pool with totalStaked } found rfl rfl representsU principalU later
    written ?_ (fun token busy => absurd busy (guard token).1)
    fun token account between shared unpaid => ?_
  · intro other account different
    have apart : ¬ (poolId = other ∧ context.caller = account) := by
      intro given
      obtain ⟨rfl, rfl⟩ := given
      simp at different
    simp [paidOutTo, sumOver, apart]
  · have inT := Book.inToken_of_pool found token
    exact (principal.shared inT shared).payout (principal poolId inT context.caller)
      (guard token).2 shared unpaid (by simp [paidOutTo, sumOver]) nonzero
      (by simp [whole])

private theorem keeps_of_stopReward
    (answers : ∀ c v v', respond c v v' → Keeps T (entry :: stack) v v')
    (run : Runs respond (stopReward context poolId) w () w') : Keeps T stack w w' := by
  intro book represents principal
  obtain ⟨pool, accrued, credit, refund, u, storage', valid, found, accrual, -, -, -,
    answered, written, rfl⟩ := runs_stopReward represents run
  have noPrincipal : ∀ other account,
      paidOutTo other account (creditEvents poolId credit) = 0 :=
    fun _ _ => paidOutTo_creditEvents
  obtain ⟨bookU, representsU, principalU, later⟩ :=
    answers _ _ _ answered book represents (principal.extend noPrincipal)
  have keepsToken := later.sameToken found
    (congrArg Terms.stakingToken accrual.terms_eq)
  refine ⟨_, representsU.putPool_eq_ok written, ?_, ?_⟩
  · have stopped := principalU.putPool { accrued with endTime := context.blocktime }
      keepsToken
    exact stopped.extend fun _ _ => rfl
  · have credited : Later T stack book w.log bookU u.log :=
      (Later.extend fun _ _ _ _ _ => noPrincipal _).trans later.pop
    have stopped := credited.trans
      (.putPool { accrued with endTime := context.blocktime } keepsToken)
    exact stopped.trans (.extend fun _ _ _ _ _ _ => rfl)

/-- Every permitted entry point keeps the principal secured when the requests it
issues do. -/
theorem keeps_of_entry
    (answers : ∀ c v v', respond c v v' → Keeps T (entry :: stack) v v')
    (guarded : principalGuard T context stack w entry)
    (run : Runs respond (entry.program context) w () w') : Keeps T stack w w' := by
  cases entry with
  | init contHash =>
      intro book represents principal
      have fresh := (runs_init run).1
      rw [represents.initialized] at fresh
      cases fresh
  | addPool stakingToken rewardToken startTime endTime precision totalReward =>
      exact keeps_of_addPool answers guarded run
  | deposit amount poolId =>
      intro book represents principal
      have keepsSelf : ∀ c credit v,
          respond c { w with log := w.log ++ creditEvents poolId credit } v →
          v.storage.selfContractHash = w.storage.selfContractHash := by
        intro c credit v answered
        exact (answers _ _ _ answered).selfHash represents
          (principal.extend fun _ _ => paidOutTo_creditEvents)
      exact (runs_deposit keepsSelf represents run).keeps answers guarded represents
        principal
  | withdraw amount poolId =>
      intro book represents principal
      exact (runs_withdraw represents run).keeps answers guarded represents principal
  | emergencyWithdraw poolId => exact keeps_of_emergencyWithdraw answers guarded run
  | stopReward poolId => exact keeps_of_stopReward answers run
  | saveMe tokenHash amount =>
      intro book represents principal
      obtain ⟨-, answered⟩ := runs_saveMe represents run
      obtain ⟨bookU, representsU, principalU, later⟩ :=
        answers _ _ _ answered book represents principal
      exact ⟨bookU, representsU, principalU, later.pop⟩
  | setAdmin account =>
      intro book represents principal
      obtain ⟨-, rfl⟩ := runs_setAdmin represents run
      exact ⟨_, represents.setAdmin account, principal, rfl,
        fun _ pool found => ⟨pool, found, rfl⟩, [], by simp, fun _ _ _ _ _ _ => rfl⟩

end Entries

/-! ## Runs among tokens that call back -/

section Runs

variable {E : Type}

/-- The runs in which every request to a hostile token may run further calls of
the same deploy before it is answered. -/
inductive ReentrantRun (tokens : TokenCall → E → E → Prop) (hostile : TokenCall → Prop)
    (permitted : Context → List Call → StakeWorld E → Call → Prop) (first : Moment E) :
    Moment E → Prop where
  | start : ReentrantRun tokens hostile permitted first first
  | wait {moment : Moment E} {later : UInt64}
      (run : ReentrantRun tokens hostile permitted first moment)
      (le : moment.now ≤ later) :
      ReentrantRun tokens hostile permitted first { moment with now := later }
  | drift {moment : Moment E} (e : E)
      (run : ReentrantRun tokens hostile permitted first moment) :
      ReentrantRun tokens hostile permitted first
        { moment with world := { moment.world with outside := e } }
  | call {moment : Moment E} {context : Context} {entry : Call} {depth : Nat}
      {w : StakeWorld E}
      (run : ReentrantRun tokens hostile permitted first moment)
      (le : moment.now ≤ context.blocktime)
      (allowed : permitted context [] moment.world entry)
      (success : Runs
        (Nested (Call.program context) tokens hostile (permitted context) depth [entry])
        (entry.program context) moment.world () w) :
      ReentrantRun tokens hostile permitted first { now := context.blocktime, world := w }

/-- Tokens that could call back need not do so. -/
theorem Run.reentrant {around : Surroundings E} {first moment : Moment E}
    (hostile : TokenCall → Prop) (run : Run around unrestricted first moment) :
    ReentrantRun around.answer hostile (fun _ _ _ _ => True) first moment := by
  induction run with
  | start => exact .start
  | wait _ le ih => exact ih.wait le
  | drift _ _ ih => exact ih.drift _
  | @call moment context entry w _ le _ success ih =>
      have atomic : Runs (Nested (Call.program context) around.answer hostile
          (fun _ _ _ => True) 0 [entry]) (entry.program context) moment.world () w :=
        success
      exact ih.call le trivial atomic

def Uninitialised (storage : Storage) : Prop :=
  ∃ admin, storage = .installed admin

variable {Good : Book → List Event → Prop}
  {Between : Context → List Call → Book → List Event → Book → List Event → Prop}

/-- Before `init`, what a property of the empty book needs to hold afterwards. -/
theorem sane_of_uninitialised {context : Context} {entry : Call} {w w' : StakeWorld E}
    {respond : TokenCall → StakeWorld E → StakeWorld E → Prop}
    (initially : ∀ admin selfHash, Good (.empty admin selfHash) [])
    (fresh : Uninitialised w.storage) (empty : w.log = [])
    (answers : ∀ c v v', respond c v v' → Sane Uninitialised Represents Good v →
      Sane Uninitialised Represents Good v')
    (run : Runs respond (entry.program context) w () w') :
    Sane Uninitialised Represents Good w' := by
  obtain ⟨admin, isFresh⟩ := fresh
  rcases entry_of_installed isFresh run with
    ⟨selfHash, represents, log⟩ | ⟨c, answered⟩ | ⟨admin', stillFresh, log⟩
  · refine .inr ⟨_, represents, ?_⟩
    rw [log, empty]
    exact initially admin selfHash
  · exact answers c w w' answered (.inl ⟨⟨admin, isFresh⟩, empty⟩)
  · exact .inl ⟨⟨admin', stillFresh⟩, log.trans empty⟩

variable {tokens : TokenCall → E → E → Prop} {hostile : TokenCall → Prop}
variable {admin : AccountHash} {start : UInt64} {outside : E} {moment : Moment E}

theorem ReentrantRun.sane {permitted : Context → List Call → StakeWorld E → Call → Prop}
    (guarantee : ∀ context, Guarantee Uninitialised Represents Good (Between context) E
      (Call.program context) (permitted context))
    (run : ReentrantRun tokens hostile permitted (installed admin start outside) moment) :
    Sane Uninitialised Represents Good moment.world := by
  induction run with
  | start => exact .inl ⟨⟨admin, rfl⟩, rfl⟩
  | wait _ _ ih => exact ih
  | drift e _ ih => exact ih
  | call _ le allowed success ih => exact ((guarantee _).call allowed success).2 ih

variable {T : ContractHash}

theorem principal_guarantee (T : ContractHash) (context : Context) :
    Guarantee Uninitialised Represents (Principal T) (Later T) E (Call.program context)
      (principalGuard T context) where
  refl := .refl
  trans := .trans
  setUp := by
    refine sane_of_uninitialised fun admin selfHash poolId _ account => ?_
    exact ⟨le_refl _, fun _ => le_refl _⟩
  entry := fun guarded answers run => keeps_of_entry answers guarded run

/-- Under the guard no account takes more principal out of a pool in `T` than it
has deposited, however the other tokens call back. -/
theorem principal_safe {poolId : UInt64} {pool : StakePool}
    (run : ReentrantRun tokens (fun c => c.token ≠ T) (principalGuard T)
      (installed admin start outside) moment)
    (read : getPool poolId moment.world.storage = .ok pool)
    (inT : pool.stakingToken = T) (account : AccountHash) :
    paidOutTo poolId account moment.world.log ≤
      depositedBy poolId account moment.world.log := by
  rcases run.sane (principal_guarantee T) with
    ⟨⟨admin', fresh⟩, -⟩ | ⟨book, represents, principal⟩
  · rw [fresh] at read
    exact absurd read getPool_installed
  · obtain ⟨-, found⟩ := represents.getPool_eq_ok.mp read
    exact (principal poolId (Book.inToken_of_pool found inT) account).paid

end Runs

/-! ## Replaying scripted call-backs -/

section Replay

variable {E : Type} (answer : TokenCall → E → Except Failure E)
variable (permitted : Context → List Call → StakeWorld E → Call → Prop)
variable [∀ context stack w entry, Decidable (permitted context stack w entry)]
variable (script : List Call → TokenCall → List Call)

/-- Execute calls one after the other, while the tokens call back as scripted. -/
def replayNested : List (Context × Call) → Moment E → Option (Moment E)
  | [], moment => some moment
  | (context, entry) :: rest, moment =>
      if moment.now ≤ context.blocktime ∧ permitted context [] moment.world entry then
        ((entry.program context).exec
          (execNested (Call.program context) answer (permitted context) script 2 [entry])
          moment.world).bind fun result =>
            replayNested rest { now := context.blocktime, world := result.2 }
      else
        none

variable {answer permitted script}

theorem ReentrantRun.replayed {hostile : TokenCall → Prop}
    (scripted : ∀ stack c, script stack c ≠ [] → hostile c)
    {calls : List (Context × Call)} {first moment moment' : Moment E}
    (run : ReentrantRun (fun c e e' => answer c e = .ok e') hostile permitted first moment)
    (success : replayNested answer permitted script calls moment = some moment') :
    ReentrantRun (fun c e e' => answer c e = .ok e') hostile permitted first moment' := by
  induction calls generalizing moment with
  | nil =>
      simp only [replayNested, Option.some.injEq] at success
      exact success ▸ run
  | cons head rest ih =>
      obtain ⟨context, entry⟩ := head
      simp only [replayNested] at success
      split at success
      · rename_i possible
        obtain ⟨⟨⟨⟩, w⟩, evaluated, later⟩ := Option.bind_eq_some_iff.mp success
        have called : Runs (Nested (Call.program context) (fun c e e' => answer c e = .ok e')
            hostile (permitted context) 2 [entry]) (entry.program context) moment.world ()
            w :=
          runs_of_exec (fun _ _ _ => nested_of_execNested scripted) evaluated
        exact ih (run.call possible.1 possible.2 called) later
      · cases success

end Replay

section Sample

open Sample

/-- The second token makes one call whenever a call of the contract transfers it. -/
def callsBack (entry : Call) : List Call → TokenCall → List Call
  | [_], .transfer token _ _ => if token = tokenB then [entry] else []
  | _, _ => []

private theorem hostile_of_callsBack {entry : Call} (stack : List Call) (c : TokenCall)
    (calls : callsBack entry stack c ≠ []) : c.token ≠ tokenA := by
  unfold callsBack at calls
  split at calls
  · split at calls
    · rename_i isB
      rw [TokenCall.token, isB]
      decide
    · exact absurd rfl calls
  · exact absurd rfl calls

section Called

variable (permitted : Context → List Call → StakeWorld Erc20Ledger → Call → Prop)
variable [∀ context stack w entry, Decidable (permitted context stack w entry)]
variable (back : Call)

/-- Two stakers share a pool in two tokens, and the first withdraws while the
reward token calls back. -/
@[irreducible] def calledBack? : Option (Moment Erc20Ledger) :=
  replayNested (Erc20Ledger.answer package) permitted (callsBack back)
    [({ caller := owner, blocktime := 0 }, .init package),
      ({ caller := owner, blocktime := 10 },
        .addPool tokenA tokenB 100 200 18 (units 1000)),
      ({ caller := staker 1, blocktime := 20 }, .deposit (units 10) 0),
      ({ caller := staker 2, blocktime := 20 }, .deposit (units 10) 0),
      ({ caller := staker 1, blocktime := 150 }, .withdraw (units 10) 0)]
    opening

variable {permitted back}

private theorem run_calledBack (success : (calledBack? permitted back).isSome) :
    ReentrantRun around.answer (fun c => c.token ≠ tokenA) permitted opening
      ((calledBack? permitted back).get success) := by
  obtain ⟨moment, replays⟩ := Option.isSome_iff_exists.mp success
  have same : (calledBack? permitted back).get success = moment := by
    simp [replays]
  rw [same]
  unfold calledBack? at replays
  exact ReentrantRun.replayed hostile_of_callsBack .start replays

end Called

def depositedInside : Moment Erc20Ledger :=
  (calledBack? (principalGuard tokenA) (.deposit (units 6) 0)).get (by decide +kernel)

private theorem run_depositedInside :
    ReentrantRun around.answer (fun c => c.token ≠ tokenA) (principalGuard tokenA) opening
      depositedInside :=
  run_calledBack _

theorem principal_safe_depositedInside :
    paidOutTo 0 (staker 1) depositedInside.world.log ≤
      depositedBy 0 (staker 1) depositedInside.world.log :=
  have read : getPool 0 depositedInside.world.storage =
      .ok (poolOf 0 depositedInside (by decide +kernel)) := read_poolOf _
  principal_safe run_depositedInside read (by decide +kernel) _

def withdrawnInside : Moment Erc20Ledger :=
  (calledBack? (fun _ _ _ _ => True) (.withdraw (units 10) 0)).get (by decide +kernel)

private theorem run_withdrawnInside :
    ReentrantRun around.answer (fun c => c.token ≠ tokenA) (fun _ _ _ _ => True) opening
      withdrawnInside :=
  run_calledBack _

/-- A withdrawal inside a withdrawal pays the same stake twice. -/
theorem principal_unsafe :
    ¬ ∀ moment, ReentrantRun around.answer (fun c => c.token ≠ tokenA)
        (fun _ _ _ _ => True) opening moment →
      ∀ poolId pool, getPool poolId moment.world.storage = .ok pool →
        pool.stakingToken = tokenA → ∀ account,
          paidOutTo poolId account moment.world.log ≤
            depositedBy poolId account moment.world.log := by
  intro claim
  have twice := claim withdrawnInside run_withdrawnInside 0
    (poolOf 0 withdrawnInside (by decide +kernel)) (read_poolOf _) (by decide +kernel)
    (staker 1)
  exact absurd twice (by decide +kernel)

end Sample

end CasperContracts.Staking
