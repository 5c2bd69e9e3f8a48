import CasperContracts.Staking.Run

/-!
# One pool at a time

Calls on different pools do not meet: the book is a family of independent
pools, each with its own members.  `PoolChange` is a `Change` seen from one
pool, and `Run.pool` is the induction rule for the life of one pool, from its
creation on.
-/

namespace CasperContracts.Staking

open CasperContracts.Basis Host Prog

/-! ## The part of the log that concerns a pool -/

def Event.poolId : Event → UInt64
  | .poolAdded pool => pool.id
  | .credited poolId _ => poolId
  | .rewardPaid poolId _ _ => poolId
  | .deposited poolId _ _ => poolId
  | .withdrawn poolId _ _ _ => poolId
  | .emergencyWithdrawn poolId _ _ => poolId
  | .stopped poolId _ _ => poolId

def eventsOf (poolId : UInt64) (log : List Event) : List Event :=
  log.filter fun event => event.poolId = poolId

def poolsCreated (log : List Event) : List StakePool :=
  log.filterMap fun event =>
    match event with
    | .poolAdded pool => some pool
    | _ => none

def createdUnder (poolId : UInt64) (log : List Event) : List StakePool :=
  (poolsCreated log).filter fun pool => pool.id = poolId

section Log

variable (poolId : UInt64) (log more : List Event)

@[simp] theorem eventsOf_append :
    eventsOf poolId (log ++ more) = eventsOf poolId log ++ eventsOf poolId more :=
  List.filter_append _ _

@[simp] theorem poolsCreated_append :
    poolsCreated (log ++ more) = poolsCreated log ++ poolsCreated more :=
  List.filterMap_append

@[simp] theorem createdUnder_append :
    createdUnder poolId (log ++ more) =
      createdUnder poolId log ++ createdUnder poolId more := by
  simp [createdUnder]

end Log

/-! ## Conditions on a stored pool -/

/-- A condition on the pool stored under an id, if there is one. -/
def OnStored (poolId : UInt64) (storage : Storage) (holds : StakePool → Prop) : Prop :=
  match getPool poolId storage with
  | .ok pool => holds pool
  | .error _ => True

instance (poolId : UInt64) (storage : Storage) (holds : StakePool → Prop)
    [DecidablePred holds] : Decidable (OnStored poolId storage holds) :=
  match read : getPool poolId storage with
  | .ok pool => decidable_of_iff (holds pool) (by simp [OnStored, read])
  | .error _ => .isTrue (by simp [OnStored, read])

theorem OnStored.of_getPool {poolId : UInt64} {storage : Storage}
    {holds : StakePool → Prop} {pool : StakePool} (stored : OnStored poolId storage holds)
    (read : getPool poolId storage = .ok pool) : holds pool := by
  simpa [OnStored, read] using stored

/-- No pool is stored under the index, where the next one will go. -/
def Vacant (storage : Storage) : Prop :=
  ∀ index, storage.index = some index → OnStored index storage fun _ => False

instance (storage : Storage) : Decidable (Vacant storage) :=
  match index : storage.index with
  | some current =>
      decidable_of_iff (OnStored current storage fun _ => False) (by simp [Vacant, index])
  | none => .isTrue (by simp [Vacant, index])

theorem Vacant.absent {storage : Storage} {book : Book} (vacant : Vacant storage)
    (represents : Represents storage book) : book.pool book.index = none := by
  cases found : book.pool book.index with
  | none => rfl
  | some pool =>
      have read := represents.getPool_eq_ok.mpr ⟨UInt64.le_refl _, found⟩
      exact ((vacant book.index represents.index).of_getPool read).elim

/-! ## Members -/

/-- The records of one pool, by key prefix. -/
abbrev Members := FiniteStore KeyPrefix UserInfo

namespace Members

/-- The record of a member; a missing record reads as empty. -/
def user (members : Members) (key : KeyPrefix) : UserInfo :=
  (members.lookup key).getD UserInfo.default

def staked (members : Members) : Nat :=
  members.total fun _ user => user.amount.toNat

def debt (members : Members) : Nat :=
  members.total fun _ user => user.rewardDebt.toNat

/-- What one write does to a sum over the members, when empty records weigh
nothing. -/
theorem total_insert (weight : UserInfo → Nat) (empty : weight UserInfo.default = 0)
    (members : Members) (key : KeyPrefix) (user' : UserInfo) :
    FiniteStore.total (fun _ user => weight user) (members.insert key user') +
        weight (members.user key) =
      FiniteStore.total (fun _ user => weight user) members + weight user' := by
  have exchange := FiniteStore.total_insert (fun _ user => weight user) members key user'
  cases found : members.lookup key with
  | none => simpa [found, user, empty] using exchange
  | some old => simpa [found, user] using exchange

theorem staked_insert (members : Members) (key : KeyPrefix) (user' : UserInfo) :
    Members.staked (members.insert key user') + (members.user key).amount.toNat =
      members.staked + user'.amount.toNat :=
  total_insert (fun user => user.amount.toNat) rfl members key user'

theorem debt_insert (members : Members) (key : KeyPrefix) (user' : UserInfo) :
    Members.debt (members.insert key user') + (members.user key).rewardDebt.toNat =
      members.debt + user'.rewardDebt.toNat :=
  total_insert (fun user => user.rewardDebt.toNat) rfl members key user'

theorem amount_le_staked (members : Members) (key : KeyPrefix) :
    (members.user key).amount.toNat ≤ members.staked := by
  cases found : members.lookup key with
  | none => simp [user, found, UserInfo.default]
  | some record =>
      simp only [user, found, Option.getD_some]
      exact FiniteStore.le_total (fun _ user => user.amount.toNat) found

theorem user_insert (members : Members) (key other : KeyPrefix) (user' : UserInfo) :
    Members.user (members.insert key user') other =
      if other = key then user' else members.user other := by
  by_cases same : other = key
  · subst same
    simp [user]
  · simp [user, same, Finmap.lookup_insert_of_ne _ same]

theorem amount_eq_zero_of_alone (members : Members) {key other : KeyPrefix}
    (distinct : other ≠ key)
    (alone : members.staked = (members.user key).amount.toNat) :
    (members.user other).amount.toNat = 0 := by
  have exchange := members.staked_insert key UserInfo.default
  have bound := amount_le_staked (members.insert key UserInfo.default) other
  rw [user_insert, if_neg distinct] at bound
  change _ + _ = _ + 0 at exchange
  omega

end Members

def Book.members (book : Book) (poolId : UInt64) : Members :=
  FiniteStore.slice book.users poolId

namespace Book

variable (book : Book) (poolId other : UInt64) (key : KeyPrefix)

theorem user_eq : book.user (key, poolId) = (book.members poolId).user key := by
  simp [user, members, Members.user, FiniteStore.lookup_slice]

@[simp] theorem putPool_members (pool : StakePool) :
    (book.putPool other pool).members poolId = book.members poolId :=
  rfl

theorem putUser_members (info : UserInfo) :
    (book.putUser (key, other) info).members poolId =
      if other = poolId then (book.members poolId).insert key info
      else book.members poolId := by
  by_cases same : other = poolId
  · subst same
    rw [if_pos rfl]
    exact FiniteStore.slice_insert_same book.users key other info
  · rw [if_neg same]
    exact FiniteStore.slice_insert_other book.users key same info

end Book

/-! ## Changes of one pool -/

/-- What a call on a pool does to the pool and its members. -/
inductive PoolChange (context : Context) (selfHash : ContractPackageHash)
    (poolId : UInt64) (pool : StakePool) (members : Members) :
    Call → List Event → StakePool → Members → Prop where
  | settle {call : Call} {accrued : StakePool} {credit : Option Credit}
      {user' : UserInfo} {totalStaked : U256} {requests : List TokenCall}
      {events : List Event}
      (accrual : Accrual context.blocktime pool accrued credit)
      (settled : Settled context selfHash poolId accrued
        (members.user context.caller.keyPrefix) user' call requests events)
      (debt : user'.rewardDebt.toNat = accrued.earned user'.amount)
      (staked : totalStaked.toNat +
          (members.user context.caller.keyPrefix).amount.toNat =
        accrued.totalStaked.toNat + user'.amount.toNat) :
      PoolChange context selfHash poolId pool members call
        (creditEvents poolId credit ++ events) { accrued with totalStaked }
        (members.insert context.caller.keyPrefix user')
  | emergencyWithdraw {amount totalStaked : U256}
      (whole : amount = (members.user context.caller.keyPrefix).amount)
      (nonzero : 0 < amount.toNat)
      (staked : pool.totalStaked.toNat = totalStaked.toNat + amount.toNat) :
      PoolChange context selfHash poolId pool members (.emergencyWithdraw poolId)
        [.emergencyWithdrawn poolId context.caller amount] { pool with totalStaked }
        (members.insert context.caller.keyPrefix
          { amount := U256.zero, rewardDebt := U256.zero })
  | stopReward {accrued : StakePool} {credit : Option Credit} {refund : U256}
      (accrual : Accrual context.blocktime pool accrued credit)
      (owner : pool.owner = context.caller)
      (running : context.blocktime < pool.endTime)
      (refunds : RefundOf context.blocktime pool refund) :
      PoolChange context selfHash poolId pool members (.stopReward poolId)
        (creditEvents poolId credit ++ [.stopped poolId context.blocktime refund])
        { accrued with endTime := context.blocktime } members

section Projection

variable {context : Context} {book book' : Book} {call : Call}
  {requests : List TokenCall} {events : List Event} {poolId other : UInt64}

def Concern (poolId : UInt64) (events : List Event) : Prop :=
  ∀ event ∈ events, event.poolId = poolId

theorem Concern.append {more : List Event} (first : Concern poolId events)
    (second : Concern poolId more) : Concern poolId (events ++ more) := by
  intro event member
  rcases List.mem_append.mp member with inFirst | inSecond
  · exact first event inFirst
  · exact second event inSecond

theorem Concern.eventsOf_eq (concern : Concern other events) :
    eventsOf poolId events = if other = poolId then events else [] := by
  by_cases same : other = poolId
  · subst same
    rw [if_pos rfl]
    exact List.filter_eq_self.mpr fun event member => by simp [concern event member]
  · rw [if_neg same]
    exact List.filter_eq_nil_iff.mpr fun event member => by simp [concern event member, same]

theorem concern_creditEvents (credit : Option Credit) :
    Concern poolId (creditEvents poolId credit) := by
  cases credit <;> simp [Concern, creditEvents, Event.poolId]

theorem poolsCreated_creditEvents (credit : Option Credit) :
    poolsCreated (creditEvents other credit) = [] := by
  cases credit <;> rfl

section Settled

variable {selfHash : ContractPackageHash} {accrued : StakePool} {user user' : UserInfo}

theorem Settled.concern
    (settled : Settled context selfHash poolId accrued user user' call requests events) :
    Concern poolId events := by
  cases settled <;> simp [Concern, Event.poolId]

theorem Settled.poolsCreated_eq
    (settled : Settled context selfHash poolId accrued user user' call requests events) :
    poolsCreated events = [] := by
  cases settled <;> rfl

end Settled

/-- What a change does at one pool id: nothing, or it creates the pool, or it
changes it by a call of its own. -/
inductive AtPool (context : Context) (book book' : Book) (call : Call)
    (events : List Event) (poolId : UInt64) : Prop where
  | untouched (notCreated : createdUnder poolId events = [])
      (noEvents : eventsOf poolId events = [])
      (samePool : book'.pool poolId = book.pool poolId)
      (sameMembers : book'.members poolId = book.members poolId)
  | created {pool : StakePool} (new : NewPool context poolId pool)
      (event : events = [.poolAdded pool])
      (added : call = .addPool pool.stakingToken pool.rewardToken pool.startTime
        pool.endTime pool.precision pool.totalReward)
      (found' : book'.pool poolId = some pool)
      (sameMembers : book'.members poolId = book.members poolId)
  | changed {pool pool' : StakePool} (notCreated : createdUnder poolId events = [])
      (allEvents : eventsOf poolId events = events)
      (valid : poolId ≤ book.index) (found : book.pool poolId = some pool)
      (found' : book'.pool poolId = some pool')
      (step : PoolChange context book.selfHash poolId pool (book.members poolId) call
        events pool' (book'.members poolId))

private theorem atPool_of_other {pool' : StakePool} (different : other ≠ poolId)
    (concern : Concern other events) (none : poolsCreated events = [])
    (pools : book'.pools = Finmap.insert other pool' book.pools)
    (members : book'.members poolId = book.members poolId) :
    AtPool context book book' call events poolId := by
  refine .untouched ?_ ?_ ?_ members
  · rw [createdUnder, none]
    rfl
  · rw [concern.eventsOf_eq, if_neg different]
  · rw [Book.pool, pools]
    exact Finmap.lookup_insert_of_ne book.pools different.symm

private theorem atPool_of_own {pool pool' : StakePool} (valid : poolId ≤ book.index)
    (concern : Concern poolId events) (none : poolsCreated events = [])
    (found : book.pool poolId = some pool) (found' : book'.pool poolId = some pool')
    (step : PoolChange context book.selfHash poolId pool (book.members poolId) call
      events pool' (book'.members poolId)) :
    AtPool context book book' call events poolId := by
  refine .changed ?_ ?_ valid found found' step
  · rw [createdUnder, none]
    rfl
  · rw [concern.eventsOf_eq, if_pos rfl]

theorem Change.atPool (change : Change context book call requests events book')
    (poolId : UInt64) : AtPool context book book' call events poolId := by
  cases change with
  | @addPool created new =>
      by_cases same : book.index = poolId
      · subst same
        exact .created new rfl rfl (book.putPool_pool_same _ _) rfl
      · refine .untouched ?_ ?_ ?_ rfl
        · simp [createdUnder, poolsCreated, new.id, same]
        · simp [eventsOf, Event.poolId, new.id, same]
        · change (book.putPool book.index created).pool poolId = _
          rw [Book.putPool_pool, if_neg (Ne.symm same)]
  | @settle _ otherId pool accrued credit user' totalStaked _ settledEvents valid found
      accrual settled debt staked =>
      have concern := (concern_creditEvents credit).append settled.concern
      have none : poolsCreated (creditEvents otherId credit ++ settledEvents) = [] := by
        rw [poolsCreated_append, poolsCreated_creditEvents, settled.poolsCreated_eq]
        rfl
      by_cases same : otherId = poolId
      · subst same
        simp only [recordKey, Book.user_eq] at settled staked
        refine atPool_of_own valid concern none found (by simp; rfl) ?_
        simp only [recordKey, Book.putUser_members, if_pos, Book.putPool_members]
        exact .settle accrual settled debt staked
      · exact atPool_of_other same concern none rfl
          (by simp [recordKey, Book.putUser_members, same])
  | @emergencyWithdraw otherId pool amount totalStaked valid found whole nonzero staked =>
      have concern : Concern otherId
          [.emergencyWithdrawn otherId context.caller amount] := by
        simp [Concern, Event.poolId]
      by_cases same : otherId = poolId
      · subst same
        simp only [recordKey, Book.user_eq] at whole
        refine atPool_of_own valid concern rfl found (by simp; rfl) ?_
        simp only [recordKey, Book.putUser_members, if_pos, Book.putPool_members]
        exact .emergencyWithdraw whole nonzero staked
      · exact atPool_of_other same concern rfl rfl
          (by simp [recordKey, Book.putUser_members, same])
  | @stopReward otherId pool accrued credit refund valid found accrual owner running
      refunds =>
      have stops : Concern otherId [.stopped otherId context.blocktime refund] := by
        simp [Concern, Event.poolId]
      have concern := (concern_creditEvents credit).append stops
      have none : poolsCreated (creditEvents otherId credit ++
          [.stopped otherId context.blocktime refund]) = [] := by
        rw [poolsCreated_append, poolsCreated_creditEvents]
        rfl
      by_cases same : otherId = poolId
      · subst same
        exact atPool_of_own valid concern none found (book.putPool_pool_same _ _)
          (.stopReward accrual owner running refunds)
      · exact atPool_of_other same concern none rfl rfl
  | saveMe => exact .untouched rfl rfl rfl rfl
  | setAdmin => exact .untouched rfl rfl rfl rfl

/-- A pool that exists is left alone or changed by a call of its own, unless it
is created again. -/
theorem Change.on_pool {pool : StakePool}
    (change : Change context book call requests events book')
    (found : book.pool poolId = some pool) (once : createdUnder poolId events = []) :
    (eventsOf poolId events = [] ∧ book'.pool poolId = some pool ∧
        book'.members poolId = book.members poolId) ∨
      ∃ pool', poolId ≤ book.index ∧ eventsOf poolId events = events ∧
        book'.pool poolId = some pool' ∧
        PoolChange context book.selfHash poolId pool (book.members poolId) call events
          pool' (book'.members poolId) := by
  cases change.atPool poolId with
  | untouched notCreated noEvents samePool sameMembers =>
      exact .inl ⟨noEvents, samePool.trans found, sameMembers⟩
  | created new event =>
      simp [event, createdUnder, poolsCreated, new.id] at once
  | changed notCreated allEvents valid found₁ found' step =>
      rw [found, Option.some.injEq] at found₁
      subst found₁
      exact .inr ⟨_, valid, allEvents, found', step⟩

/-- A pool that does not exist stays absent, without members, or is created. -/
theorem Change.on_absent (change : Change context book call requests events book')
    (absent : book.pool poolId = none) :
    (createdUnder poolId events = [] ∧ eventsOf poolId events = [] ∧
        book'.pool poolId = none ∧ book'.members poolId = book.members poolId) ∨
      ∃ pool, NewPool context poolId pool ∧ events = [.poolAdded pool] ∧
        book'.pool poolId = some pool ∧ book'.members poolId = book.members poolId := by
  cases change.atPool poolId with
  | untouched notCreated noEvents samePool sameMembers =>
      exact .inl ⟨notCreated, noEvents, samePool.trans absent, sameMembers⟩
  | created new event added found' sameMembers =>
      exact .inr ⟨_, new, event, found', sameMembers⟩
  | changed notCreated allEvents valid found =>
      rw [absent] at found
      cases found

/-- Where a pool of the book comes from: it was there, it is new, or it has been
changed by a call of its own. -/
theorem Change.pool_cases {pool' : StakePool}
    (change : Change context book call requests events book')
    (found' : book'.pool poolId = some pool') :
    book.pool poolId = some pool' ∨
      (NewPool context poolId pool' ∧
        call = .addPool pool'.stakingToken pool'.rewardToken pool'.startTime
          pool'.endTime pool'.precision pool'.totalReward) ∨
      ∃ pool, poolId ≤ book.index ∧ book.pool poolId = some pool ∧
        PoolChange context book.selfHash poolId pool (book.members poolId) call events
          pool' (book'.members poolId) := by
  cases change.atPool poolId with
  | untouched notCreated noEvents samePool sameMembers =>
      exact .inl (samePool.symm.trans found')
  | created new event added found =>
      rw [found', Option.some.injEq] at found
      subst found
      exact .inr (.inl ⟨new, added⟩)
  | changed notCreated allEvents valid found found₁ step =>
      rw [found', Option.some.injEq] at found₁
      subst found₁
      exact .inr (.inr ⟨_, valid, found, step⟩)

end Projection

/-! ## The life of a pool -/

section Life

variable {E : Type} {around : Surroundings E}
variable {permitted : Context → Call → Storage → Prop} {poolId : UInt64}

/-- A property of clock, pool, members and the pool's events that every step of
the pool keeps. -/
structure PoolInvariant (permitted : Context → Call → Storage → Prop)
    (poolId : UInt64) (Inv : UInt64 → StakePool → Members → List Event → Prop) :
    Prop where
  wait : ∀ {now later pool members log}, Inv now pool members log → now ≤ later →
    Inv later pool members log
  change : ∀ {now pool members log context call storage selfHash events pool' members'},
    Inv now pool members log → now ≤ context.blocktime →
    getPool poolId storage = .ok pool → permitted context call storage →
    PoolChange context selfHash poolId pool members call events pool' members' →
    Inv context.blocktime pool' members' (log ++ events)

variable {Inv : UInt64 → StakePool → Members → List Event → Prop}

/-- An id without a pool has neither members nor events. -/
def Unborn (poolId : UInt64) (book : Book) (log : List Event) : Prop :=
  createdUnder poolId log = [] → book.pool poolId = none ∧
    book.members poolId = ∅ ∧ eventsOf poolId log = []

theorem unborn_invariant (around : Surroundings E) (poolId : UInt64) :
    Invariant around permitted fun _ book _ log => Unborn poolId book log where
  wait := fun before _ => before
  drift := fun before _ => before
  change := by
    intro now book e log context call storage requests events book' e'
      before le represents allowed change answered none
    rw [createdUnder_append, List.append_eq_nil_iff] at none
    obtain ⟨absent, noMembers, noEvents⟩ := before none.1
    rcases change.on_absent absent with
      ⟨-, sameEvents, stillAbsent, sameMembers⟩ | ⟨pool, new, rfl, -, -⟩
    · exact ⟨stillAbsent, sameMembers.trans noMembers, by simp [noEvents, sameEvents]⟩
    · simp [createdUnder, poolsCreated, new.id] at none

/-- In a run nothing is stored or recorded under an id before its creation. -/
theorem Run.unborn {admin : AccountHash} {now : UInt64} {outside : E}
    {moment : Moment E} (run : Run around permitted (installed admin now outside) moment)
    (none : createdUnder poolId moment.world.log = []) :
    (∀ pool, getPool poolId moment.world.storage ≠ .ok pool) ∧
      eventsOf poolId moment.world.log = [] := by
  rcases run.from_installed (unborn_invariant around poolId)
      (fun _ _ _ _ _ => ⟨rfl, rfl, rfl⟩) with
    ⟨log, _, fresh⟩ | ⟨book, represents, unborn⟩
  · rw [fresh, log]
    exact ⟨fun _ => getPool_installed, rfl⟩
  · obtain ⟨absent, -, noEvents⟩ := unborn none
    refine ⟨fun pool read => ?_, noEvents⟩
    rw [(represents.getPool_eq_ok.mp read).2] at absent
    cases absent

/-- A pool that is created once in a run, and exists in an early part of it, was
created there. -/
theorem Run.created_earlier {first : StakePool} {earlier later : Moment E}
    (run : Run around permitted earlier later)
    (once : createdUnder poolId later.world.log = [first])
    (born : createdUnder poolId earlier.world.log ≠ []) :
    createdUnder poolId earlier.world.log = [first] := by
  obtain ⟨more, log⟩ := run.log_extends
  rw [log, createdUnder_append, List.append_eq_singleton_iff] at once
  rcases once with ⟨notYet, -⟩ | ⟨created, -⟩
  · exact absurd notYet born
  · exact created

/-- What a book says about a pool that is created at most once. -/
structure Lives (poolId : UInt64) (first : StakePool)
    (Inv : UInt64 → StakePool → Members → List Event → Prop)
    (now : UInt64) (book : Book) (log : List Event) : Prop where
  before : Unborn poolId book log
  alive : createdUnder poolId log = [first] → ∃ pool, book.pool poolId = some pool ∧
    Inv now pool (book.members poolId) (eventsOf poolId log)

private theorem PoolInvariant.alive (invariant : PoolInvariant permitted poolId Inv)
    {now : UInt64} {context : Context} {storage : Storage} {book book' : Book}
    {pool : StakePool} {call : Call} {requests : List TokenCall}
    {log events : List Event}
    (found : book.pool poolId = some pool)
    (holds : Inv now pool (book.members poolId) (eventsOf poolId log))
    (le : now ≤ context.blocktime) (represents : Represents storage book)
    (allowed : permitted context call storage)
    (change : Change context book call requests events book')
    (notAgain : createdUnder poolId events = []) :
    ∃ pool', book'.pool poolId = some pool' ∧
      Inv context.blocktime pool' (book'.members poolId)
        (eventsOf poolId (log ++ events)) := by
  rcases change.on_pool found notAgain with
    ⟨noEvents, stillFound, sameMembers⟩ | ⟨pool', valid, allEvents, found', step⟩
  · refine ⟨pool, stillFound, ?_⟩
    rw [sameMembers, eventsOf_append, noEvents, List.append_nil]
    exact invariant.wait holds le
  · refine ⟨pool', found', ?_⟩
    rw [eventsOf_append, allEvents]
    exact invariant.change holds le (represents.getPool_eq_ok.mpr ⟨valid, found⟩)
      allowed step

/-- An invariant of a pool that holds at its creation holds of the pool in every
book of a run. -/
theorem PoolInvariant.lives {first : StakePool}
    (invariant : PoolInvariant permitted poolId Inv)
    (created : ∀ context, NewPool context poolId first →
      Inv context.blocktime first ∅ [.poolAdded first]) :
    Invariant around permitted fun now book _ log =>
      Lives poolId first Inv now book log where
  wait := by
    intro now later book e log kept le
    obtain ⟨before, alive⟩ := kept
    refine ⟨before, fun once => ?_⟩
    obtain ⟨pool, found, holds⟩ := alive once
    exact ⟨pool, found, invariant.wait holds le⟩
  drift := fun lives _ => lives
  change := by
    intro now book e log context call storage requests events book' e' kept le
        represents allowed change answered
    obtain ⟨before, alive⟩ := kept
    refine ⟨(unborn_invariant around poolId).change before le represents allowed change
      answered, fun once => ?_⟩
    rw [createdUnder_append, List.append_eq_singleton_iff] at once
    rcases once with ⟨notYet, creates⟩ | ⟨earlier, notAgain⟩
    · obtain ⟨absent, noMembers, noEvents⟩ := before notYet
      rcases change.on_absent absent with
        ⟨notCreated, -⟩ | ⟨pool, new, rfl, found, sameMembers⟩
      · rw [notCreated] at creates
        cases creates
      · have same : pool = first := by
          simpa [createdUnder, poolsCreated, new.id] using creates
        subst same
        refine ⟨pool, found, ?_⟩
        have about : eventsOf poolId [.poolAdded pool] = [.poolAdded pool] := by
          simp [eventsOf, Event.poolId, new.id]
        rw [sameMembers, noMembers, eventsOf_append, noEvents, about]
        exact created context new
    · obtain ⟨pool, found, holds⟩ := alive earlier
      exact invariant.alive found holds le represents allowed change notAgain

/-- The induction rule for the life of one pool. -/
theorem Run.pool {first : StakePool} (invariant : PoolInvariant permitted poolId Inv)
    (created : ∀ context, NewPool context poolId first →
      Inv context.blocktime first ∅ [.poolAdded first])
    {admin : AccountHash} {now : UInt64} {outside : E} {moment : Moment E}
    (run : Run around permitted (installed admin now outside) moment)
    (once : createdUnder poolId moment.world.log = [first]) :
    ∃ book pool, Represents moment.world.storage book ∧
      book.pool poolId = some pool ∧
      Inv moment.now pool (book.members poolId) (eventsOf poolId moment.world.log) := by
  have initially : ∀ now admin selfHash (_ : E),
      Lives poolId first Inv now (.empty admin selfHash) [] := by
    intro now admin selfHash _
    exact ⟨fun _ => ⟨rfl, rfl, rfl⟩, fun impossible => by cases impossible⟩
  rcases run.from_installed (invariant.lives created) initially with
    ⟨log, -⟩ | ⟨book, represents, -, alive⟩
  · rw [log] at once
    cases once
  · obtain ⟨pool, found, holds⟩ := alive once
    exact ⟨book, pool, represents, found, holds⟩

/-- The induction rule for a part of the life of one pool. -/
theorem Run.pool_onward {first : StakePool}
    (invariant : PoolInvariant permitted poolId Inv) {moment moment' : Moment E}
    {book : Book} {pool : StakePool}
    (represents : Represents moment.world.storage book)
    (found : book.pool poolId = some pool)
    (holds : Inv moment.now pool (book.members poolId)
      (eventsOf poolId moment.world.log))
    (born : createdUnder poolId moment.world.log = [first])
    (run : Run around permitted moment moment')
    (once : createdUnder poolId moment'.world.log = [first]) :
    ∃ book pool, Represents moment'.world.storage book ∧
      book.pool poolId = some pool ∧
      Inv moment'.now pool (book.members poolId)
        (eventsOf poolId moment'.world.log) := by
  have onward : Invariant around permitted fun now book (_ : E) log =>
      createdUnder poolId log ≠ [] ∧
        (createdUnder poolId log = [first] → ∃ pool, book.pool poolId = some pool ∧
          Inv now pool (book.members poolId) (eventsOf poolId log)) := {
    wait := by
      intro now later book e log kept le
      obtain ⟨created, alive⟩ := kept
      refine ⟨created, fun once => ?_⟩
      obtain ⟨pool, found, holds⟩ := alive once
      exact ⟨pool, found, invariant.wait holds le⟩
    drift := fun alive _ => alive
    change := by
      intro now book e log context call storage requests events book' e' kept le
        represents allowed change _
      obtain ⟨created, alive⟩ := kept
      refine ⟨by simp [created], fun once => ?_⟩
      rw [createdUnder_append, List.append_eq_singleton_iff] at once
      rcases once with ⟨notYet, -⟩ | ⟨earlier, notAgain⟩
      · exact absurd notYet created
      · obtain ⟨pool, found, holds⟩ := alive earlier
        exact invariant.alive found holds le represents allowed change notAgain }
  have initially : createdUnder poolId moment.world.log ≠ [] := by
    rw [born]
    exact List.cons_ne_nil _ _
  obtain ⟨book', represents', -, alive⟩ :=
    run.represented onward represents ⟨initially, fun _ => ⟨pool, found, holds⟩⟩
  obtain ⟨pool', found', holds'⟩ := alive once
  exact ⟨book', pool', represents', found', holds'⟩

/-! ## All pools of a run -/

/-- As long as the index has not wrapped, the ids below it have been kept out
once each, and no others. -/
structure Roster (book : Book) (log : List Event) : Prop where
  index : book.index.toNat = (poolsCreated log).length
  below : ∀ poolId < book.index, ∃ pool, createdUnder poolId log = [pool]
  above : ∀ poolId, book.index ≤ poolId → createdUnder poolId log = []

private theorem poolsCreated_of_change {context : Context} {book book' : Book}
    {call : Call} {requests : List TokenCall} {events : List Event}
    (change : Change context book call requests events book') :
    (poolsCreated events = [] ∧ book'.index = book.index) ∨
      ∃ pool : StakePool, pool.id = book.index ∧ poolsCreated events = [pool] ∧
        book'.index = book.index + 1 := by
  cases change with
  | addPool new => exact .inr ⟨_, new.id, rfl, rfl⟩
  | settle valid found accrual settled =>
      refine .inl ⟨?_, rfl⟩
      simp [poolsCreated_creditEvents, settled.poolsCreated_eq]
  | emergencyWithdraw => exact .inl ⟨rfl, rfl⟩
  | stopReward =>
      refine .inl ⟨?_, rfl⟩
      simp [poolsCreated_creditEvents]
      rfl
  | saveMe => exact .inl ⟨rfl, rfl⟩
  | setAdmin => exact .inl ⟨rfl, rfl⟩

private theorem Roster.keep {book book' : Book} {log events : List Event}
    (roster : Roster book log) (none : poolsCreated events = [])
    (sameIndex : book'.index = book.index) : Roster book' (log ++ events) := by
  have sameUnder : ∀ poolId, createdUnder poolId (log ++ events) =
      createdUnder poolId log := by
    intro poolId
    simp [createdUnder, none]
  exact {
    index := by rw [sameIndex, roster.index, poolsCreated_append, none, List.append_nil]
    below := fun poolId lt => by
      rw [sameUnder]
      exact roster.below poolId (sameIndex ▸ lt)
    above := fun poolId le => by
      rw [sameUnder]
      exact roster.above poolId (sameIndex ▸ le) }

private theorem Roster.join {book book' : Book} {log events : List Event}
    {pool : StakePool} (roster : Roster book log) (id : pool.id = book.index)
    (one : poolsCreated events = [pool]) (next : book'.index = book.index + 1)
    (noWrap : (book.index + 1).toNat = book.index.toNat + 1) :
    Roster book' (log ++ events) := by
  have under : ∀ poolId, createdUnder poolId (log ++ events) =
      createdUnder poolId log ++ if book.index = poolId then [pool] else [] := by
    intro poolId
    rw [createdUnder_append]
    by_cases same : book.index = poolId <;> simp [createdUnder, one, id, same]
  refine ⟨?_, ?_, ?_⟩
  · rw [next, noWrap, roster.index, poolsCreated_append, one, List.length_append,
      List.length_singleton]
  · intro poolId lt
    rw [next, UInt64.lt_iff_toNat_lt, noWrap] at lt
    rw [under]
    by_cases same : book.index = poolId
    · subst same
      exact ⟨pool, by simp [roster.above book.index (UInt64.le_refl _)]⟩
    · have different : book.index.toNat ≠ poolId.toNat :=
        fun equal => same (UInt64.toNat_inj.mp equal)
      have earlier : poolId < book.index := by
        rw [UInt64.lt_iff_toNat_lt]
        omega
      obtain ⟨old, created⟩ := roster.below poolId earlier
      exact ⟨old, by simp [created, same]⟩
  · intro poolId le
    rw [next, UInt64.le_iff_toNat_le, noWrap] at le
    have later : book.index ≤ poolId := by
      rw [UInt64.le_iff_toNat_le]
      omega
    have different : ¬ book.index = poolId := by
      intro same
      subst same
      omega
    rw [under, roster.above poolId later, if_neg different]
    rfl

private theorem Roster.change {context : Context} {book book' : Book}
    {call : Call} {requests : List TokenCall} {log events : List Event}
    (change : Change context book call requests events book')
    (roster : Roster book log)
    (few : (poolsCreated (log ++ events)).length < 2 ^ 64) :
    Roster book' (log ++ events) := by
  rcases poolsCreated_of_change change with ⟨none, sameIndex⟩ | ⟨pool, id, one, next⟩
  · exact roster.keep none sameIndex
  · apply roster.join id one next
    rw [poolsCreated_append, one, List.length_append, List.length_singleton,
      ← roster.index] at few
    rw [UInt64.toNat_add]
    exact Nat.mod_eq_of_lt few

theorem roster_invariant (around : Surroundings E) :
    Invariant around permitted fun _ book _ log =>
      (poolsCreated log).length < 2 ^ 64 → Roster book log where
  wait := fun holds _ => holds
  drift := fun holds _ => holds
  change := by
    intro now book e log context call storage requests events book' e'
      holds le represents allowed change answered few
    have before : (poolsCreated log).length < 2 ^ 64 := by
      rw [poolsCreated_append, List.length_append] at few
      omega
    exact (holds before).change change few

/-- With fewer than `2 ^ 64` pools created, every pool of a run satisfies the
invariant of its own life, and there are no members where there is no pool. -/
theorem Run.pools
    (Inv : UInt64 → StakePool → UInt64 → StakePool → Members → List Event → Prop)
    (invariant : ∀ poolId first, PoolInvariant permitted poolId (Inv poolId first))
    (created : ∀ poolId first context, NewPool context poolId first →
      Inv poolId first context.blocktime first ∅ [.poolAdded first])
    {admin : AccountHash} {now : UInt64} {outside : E} {moment : Moment E}
    (run : Run around permitted (installed admin now outside) moment)
    (few : (poolsCreated moment.world.log).length < 2 ^ 64) :
    (∃ admin', moment.world.storage = .installed admin') ∨
      ∃ book, Represents moment.world.storage book ∧
        (∀ poolId < book.index, ∃ first pool,
          createdUnder poolId moment.world.log = [first] ∧
          book.pool poolId = some pool ∧
          Inv poolId first moment.now pool (book.members poolId)
            (eventsOf poolId moment.world.log)) ∧
        ∀ poolId, book.index ≤ poolId →
          book.pool poolId = none ∧ book.members poolId = ∅ := by
  have lives : Invariant around permitted fun now book _ log =>
      ∀ poolId first, Lives poolId first (Inv poolId first) now book log :=
    .all fun poolId => .all fun first =>
      (invariant poolId first).lives (created poolId first)
  have unborn : Invariant around permitted fun _ book _ log =>
      ∀ poolId, Unborn poolId book log :=
    .all (unborn_invariant around)
  have roster : Invariant around permitted fun _ book _ log =>
      (poolsCreated log).length < 2 ^ 64 → Roster book log :=
    roster_invariant around
  have all := roster.and (unborn.and lives)
  have initially : ∀ now admin selfHash (_ : E),
      ((poolsCreated []).length < 2 ^ 64 → Roster (.empty admin selfHash) []) ∧
        (∀ poolId, Unborn poolId (.empty admin selfHash) []) ∧
        ∀ poolId first, Lives poolId first (Inv poolId first) now
          (.empty admin selfHash) [] := by
    intro now admin selfHash _
    have nothing : ∀ poolId, Unborn poolId (.empty admin selfHash) [] :=
      fun _ _ => ⟨rfl, rfl, rfl⟩
    refine ⟨fun _ => ⟨rfl, fun poolId lt => ?_, fun _ _ => rfl⟩, nothing,
      fun poolId first => ⟨nothing poolId, fun impossible => by cases impossible⟩⟩
    exact absurd lt (UInt64.not_lt.mpr UInt64.zero_le)
  rcases run.from_installed all initially with
    ⟨-, fresh⟩ | ⟨book, represents, roster, unborn, lives⟩
  · exact .inl fresh
  · refine .inr ⟨book, represents, ?_, ?_⟩
    · intro poolId lt
      obtain ⟨first, once⟩ := (roster few).below poolId lt
      obtain ⟨pool, found, holds⟩ := (lives poolId first).alive once
      exact ⟨first, pool, once, found, holds⟩
    · intro poolId le
      obtain ⟨absent, noMembers, -⟩ := unborn poolId ((roster few).above poolId le)
      exact ⟨absent, noMembers⟩

end Life

end CasperContracts.Staking
