import CasperContracts.Basis.Allocation
import CasperContracts.Staking.Reentrancy

/-!
# Pool ids among tokens that call back

`add_pool` reads the index and stores its pool before it calls the token, and
writes the index back after.  The contract is a counter of pool ids in the sense
of `Registry`; the other entry points write only to pools they have found.
-/

namespace CasperContracts.Staking

open CasperContracts.Basis Host Prog

def Call.creates : Call → Prop
  | .addPool _ _ _ _ _ _ => True
  | _ => False

instance : DecidablePred Call.creates
  | .addPool _ _ _ _ _ _ => .isTrue trivial
  | .init _ | .deposit _ _ | .withdraw _ _ | .emergencyWithdraw _ | .stopReward _
  | .saveMe _ _ | .setAdmin _ => .isFalse id

/-- A call and the deploy it belongs to. -/
abbrev Entry := Context × Call

def Entry.program (entry : Entry) : Contract Unit :=
  entry.2.program entry.1

def Event.created : Event → Option UInt64
  | .poolAdded pool => some pool.id
  | _ => none

def storedBytes (poolId : UInt64) (storage : Storage) : Option (List UInt8) := do
  let dictionary ← storage.stakeInfos
  let key ← (makePoolKeyId poolId storage).toOption
  dictionary.lookup key

/-- The pool stored under an id, whatever the index says. -/
def storedPool (poolId : UInt64) (storage : Storage) : Option StakePool := do
  let bytes ← storedBytes poolId storage
  StakePool.unpack bytes

/-- Where the contract keeps its counter and the pools. -/
def registry : Registry Storage Event Entry ContractPackageHash (List UInt8) where
  fresh := Uninitialised
  wellFormed := fun storage => ∃ book, Represents storage book
  index := Storage.index
  home := Storage.selfContractHash
  slot := fun storage poolId => storedBytes poolId storage
  id? := Event.created
  allocates := fun entry => entry.2.creates

instance : DecidablePred registry.allocates :=
  fun entry => inferInstanceAs (Decidable entry.2.creates)

section Entries

variable {stack : List Entry} {k : Entry} {v : Inside Storage Event}
variable {context : Context} {storage storage' : Storage} {book book' : Book}
variable {poolId : UInt64} {home : ContractPackageHash} {pool : StakePool} {user : UserInfo}

/-! ## Writes -/

theorem Represents.storedBytes_eq (represents : Represents storage book) :
    storedBytes poolId storage = (book.pool poolId).map StakePool.pack := by
  obtain ⟨dictionary, stored, encodes⟩ := represents.pools
  simp [storedBytes, stored, represents.makePoolKeyId_eq, Except.toOption,
    encodes.lookup (numberedKey_injective _), Book.pool]

theorem storedBytes_uninitialised (fresh : Uninitialised storage) :
    storedBytes poolId storage = none := by
  obtain ⟨admin, rfl⟩ := fresh
  rfl

theorem fills_of_represents (represents : Represents storage book)
    (represents' : Represents storage' book') (index : book'.index = book.index)
    (selfHash : book'.selfHash = book.selfHash)
    (pools : ∀ other, book'.pool other =
      if other = poolId then some pool else book.pool other) :
    registry.Fills poolId storage storage' where
  wellFormed := ⟨book', represents'⟩
  index := by
    change storage'.index = storage.index
    rw [represents'.index, represents.index, index]
  home := by
    change storage'.selfContractHash = storage.selfContractHash
    rw [represents'.selfHash, represents.selfHash, selfHash]
  others := by
    intro other different
    change storedBytes other storage' = storedBytes other storage
    rw [represents'.storedBytes_eq, represents.storedBytes_eq, pools, if_neg different]
  filled := by
    change (storedBytes poolId storage').isSome
    rw [represents'.storedBytes_eq, pools, if_pos rfl]
    rfl

theorem fills_of_updateStorage (wellFormed : registry.wellFormed storage)
    (written : updateStorage context pool user poolId storage = .ok storage') :
    registry.Fills poolId storage storage' := by
  obtain ⟨book, represents⟩ := wellFormed
  exact fills_of_represents represents (represents.updateStorage_eq_ok written) rfl rfl
    fun other => Book.putPool_pool book poolId other pool

theorem fills_of_putPool {missing : ApiError} (wellFormed : registry.wellFormed storage)
    (written : putPool missing poolId pool storage = .ok storage') :
    registry.Fills poolId storage storage' := by
  obtain ⟨book, represents⟩ := wellFormed
  exact fills_of_represents represents (represents.putPool_eq_ok written) rfl rfl
    fun other => Book.putPool_pool book poolId other pool

/-! ## Entry points that do not allocate -/

@[simp] theorem meets_revertIf {D : Discipline Storage Event Entry} {condition : Prop}
    [Decidable condition] {error : ApiError} {post : Unit → Inside Storage Event → Prop} :
    D.Meets stack k (revertIf condition error) post v ↔ (¬ condition → post () v) :=
  Discipline.meets_ite_fail

theorem plain_revertIf {condition : Prop} [Decidable condition] {error : ApiError} :
    registry.Plain home poolId stack k (revertIf condition error) := by
  intro v holds
  rw [meets_revertIf]
  exact fun _ => holds

theorem plain_arith {α : Type} {result : Option α} :
    registry.Plain home poolId stack k (arith result) :=
  Registry.plain_ofExcept

/-- The pool an entry point has found stays where it is. -/
theorem holds_of_getPool (ready : registry.Ready stack v)
    (read : getPool poolId v.storage = .ok pool) :
    ∃ home, registry.Holds home poolId stack v := by
  rcases ready with ⟨⟨admin, fresh⟩, -⟩ | ⟨next, sound⟩
  · rw [fresh] at read
    exact absurd read getPool_installed
  · obtain ⟨book, represents⟩ := sound.wellFormed
    obtain ⟨-, found⟩ := represents.getPool_eq_ok.mp read
    refine ⟨book.selfHash, ⟨next, sound⟩, represents.selfHash, ?_⟩
    change (storedBytes poolId v.storage).isSome
    rw [represents.storedBytes_eq, found]
    rfl

private theorem meets_getPool_bind {f : StakePool → Contract Unit}
    (ready : registry.Ready stack v)
    (plain : ∀ home pool, registry.Plain home poolId stack k (f pool)) :
    registry.discipline.Meets stack k (Prog.reads (getPool poolId) >>= f)
      (fun _ => registry.Ready stack) v := by
  rw [Discipline.meets_bind, Discipline.meets_reads]
  intro pool read
  obtain ⟨home, holds⟩ := holds_of_getPool ready read
  exact (plain home pool v holds).mono fun _ _ => Registry.Holds.ready

private theorem meets_updatePool_bind {f : StakePool → Contract Unit}
    (none : ¬ registry.allocates k) (ready : registry.Ready stack v)
    (plain : ∀ home pool, registry.Plain home poolId stack k (f pool)) :
    registry.discipline.Meets stack k (updatePool context poolId >>= f)
      (fun _ => registry.Ready stack) v := by
  rw [Discipline.meets_bind, updatePool, Discipline.meets_bind, Discipline.meets_reads]
  intro found read
  obtain ⟨home, holds⟩ := holds_of_getPool ready read
  have goesOn : ∀ updated v', registry.Holds home poolId stack v' →
      registry.discipline.Meets stack k (f updated) (fun _ => registry.Ready stack) v' :=
    fun updated v' holds' =>
      (plain home updated v' holds').mono fun _ _ => Registry.Holds.ready
  refine Discipline.Meets.mono goesOn ((?_ : registry.Plain home poolId stack k _) v holds)
  refine Registry.plain_ofExcept.bind fun updated => ?_
  dsimp only
  split
  · exact (Registry.plain_record none rfl).bind fun _ => Registry.plain_pure
  · exact Registry.plain_pure

private theorem plain_updateStorage (none : ¬ registry.allocates k) :
    registry.Plain home poolId stack k
      (Prog.updates (updateStorage context pool user poolId) : Contract Unit) :=
  Registry.plain_updates none fun _ _ wellFormed _ written =>
    fills_of_updateStorage wellFormed written

private theorem plain_firstDeposit {amount newAmount : U256}
    (none : ¬ registry.allocates k) :
    registry.Plain home poolId stack k
      (firstDeposit context amount newAmount pool poolId) := by
  refine plain_arith.bind fun totalStaked => plain_arith.bind fun product => ?_
  refine plain_arith.bind fun precision => plain_arith.bind fun rewardDebt => ?_
  refine Registry.plain_reads.bind fun spender => ?_
  refine (Registry.plain_request none).bind fun _ => ?_
  exact (plain_updateStorage none).bind fun _ => Registry.plain_record none rfl

private theorem plain_payDeposit {pending amount : U256}
    {rewardToken stakingToken : ContractHash} (none : ¬ registry.allocates k) :
    registry.Plain home poolId stack k
      (payDeposit context pending amount rewardToken stakingToken) := by
  unfold payDeposit
  split
  · exact Registry.plain_reads.bind fun _ => Registry.plain_request none
  · exact plain_arith.bind fun _ => Registry.plain_request none
  · refine Registry.plain_reads.bind fun _ => ?_
    exact plain_arith.bind fun _ => Registry.plain_request none
  · refine (Registry.plain_request none).bind fun _ => ?_
    exact Registry.plain_reads.bind fun _ => Registry.plain_request none

private theorem plain_topUpDeposit {amount newAmount : U256}
    (none : ¬ registry.allocates k) :
    registry.Plain home poolId stack k
      (topUpDeposit context amount newAmount pool user poolId) := by
  refine plain_arith.bind fun precision => plain_arith.bind fun product => ?_
  refine plain_arith.bind fun quotient => plain_arith.bind fun pending => ?_
  refine plain_arith.bind fun totalStaked => plain_arith.bind fun newProduct => ?_
  refine plain_arith.bind fun rewardDebt => (plain_payDeposit none).bind fun _ => ?_
  refine (plain_updateStorage none).bind fun _ => ?_
  exact (Registry.plain_record none rfl).bind fun _ => Registry.plain_record none rfl

theorem meets_deposit {amount : U256} (none : ¬ registry.allocates k)
    (ready : registry.Ready stack v) :
    registry.discipline.Meets stack k (deposit context amount poolId)
      (fun _ => registry.Ready stack) v := by
  rw [deposit, Discipline.meets_bind, meets_revertIf]
  refine fun _ => meets_updatePool_bind none ready fun home pool => ?_
  refine plain_revertIf.bind fun _ => Registry.plain_reads.bind fun user => ?_
  refine plain_arith.bind fun newAmount => ?_
  split
  · exact plain_firstDeposit none
  · exact plain_topUpDeposit none

private theorem plain_payWithdraw {pending amount : U256}
    {rewardToken stakingToken : ContractHash} (none : ¬ registry.allocates k) :
    registry.Plain home poolId stack k
      (payWithdraw context pending amount rewardToken stakingToken) := by
  unfold payWithdraw
  split
  · exact Registry.plain_request none
  · exact plain_arith.bind fun _ => Registry.plain_request none
  · exact (Registry.plain_request none).bind fun _ => Registry.plain_request none

theorem meets_withdraw {amount : U256} (none : ¬ registry.allocates k)
    (ready : registry.Ready stack v) :
    registry.discipline.Meets stack k (withdraw context amount poolId)
      (fun _ => registry.Ready stack) v := by
  rw [withdraw, Discipline.meets_bind, meets_revertIf]
  intro _
  rw [Discipline.meets_bind, Discipline.meets_reads]
  refine fun user _ => meets_updatePool_bind none ready fun home pool => ?_
  refine plain_revertIf.bind fun _ => plain_arith.bind fun newAmount => ?_
  refine plain_arith.bind fun precision => plain_arith.bind fun product => ?_
  refine plain_arith.bind fun quotient => plain_arith.bind fun pending => ?_
  refine plain_arith.bind fun totalStaked => plain_arith.bind fun newProduct => ?_
  refine plain_arith.bind fun rewardDebt => (plain_payWithdraw none).bind fun _ => ?_
  refine (plain_updateStorage none).bind fun _ => ?_
  exact (Registry.plain_record none rfl).bind fun _ => Registry.plain_record none rfl

theorem meets_emergencyWithdraw (none : ¬ registry.allocates k)
    (ready : registry.Ready stack v) :
    registry.discipline.Meets stack k (emergencyWithdraw context poolId)
      (fun _ => registry.Ready stack) v := by
  refine meets_getPool_bind ready fun home pool => ?_
  refine Registry.plain_reads.bind fun user => plain_revertIf.bind fun _ => ?_
  refine plain_arith.bind fun totalStaked => (Registry.plain_request none).bind fun _ => ?_
  exact (plain_updateStorage none).bind fun _ => Registry.plain_record none rfl

theorem meets_stopReward (none : ¬ registry.allocates k)
    (ready : registry.Ready stack v) :
    registry.discipline.Meets stack k (stopReward context poolId)
      (fun _ => registry.Ready stack) v := by
  refine meets_updatePool_bind none ready fun home pool => ?_
  refine plain_revertIf.bind fun _ => plain_revertIf.bind fun _ => ?_
  refine plain_arith.bind fun amount => plain_arith.bind fun refund => ?_
  refine (Registry.plain_request none).bind fun _ => ?_
  refine Registry.Plain.bind (Registry.plain_updates none ?_) fun _ => ?_
  · exact fun _ _ wellFormed _ written => fills_of_putPool wellFormed written
  · exact Registry.plain_record none rfl

theorem meets_saveMe {tokenHash : ContractHash} {amount : U256}
    (none : ¬ registry.allocates k) (ready : registry.Ready stack v) :
    registry.discipline.Meets stack k (saveMe context tokenHash amount)
      (fun _ => registry.Ready stack) v := by
  simp only [saveMe, Discipline.meets_bind, Discipline.meets_reads, meets_revertIf,
    Discipline.meets_request]
  intro admin _ _
  exact ⟨(Registry.ready_cons none).mpr ready,
    fun v' ready' _ => (Registry.ready_cons none).mp ready'⟩

theorem meets_setAdmin {account : AccountHash} (none : ¬ registry.allocates k)
    (ready : registry.Ready stack v) :
    registry.discipline.Meets stack k (setAdmin context account)
      (fun _ => registry.Ready stack) v := by
  simp only [setAdmin, Discipline.meets_bind, Discipline.meets_reads, meets_revertIf,
    Discipline.meets_updates]
  intro admin _ _ storage' written
  cases written
  refine ready.step none {
    fresh := ?_
    wellFormed := ?_
    index := rfl
    home := rfl
    slot := fun _ => rfl
    ids := rfl }
  · intro _ fresh
    obtain ⟨admin, installed⟩ := fresh
    exact ⟨account, by simp [installed, Storage.installed]⟩
  · intro wellFormed
    obtain ⟨book, represents⟩ := wellFormed
    exact ⟨_, represents.setAdmin account⟩

theorem meets_init {contHash : ContractPackageHash} (none : ¬ registry.allocates k)
    (ready : registry.Ready stack v) :
    registry.discipline.Meets stack k (init contHash) (fun _ => registry.Ready stack) v := by
  simp only [init, Discipline.meets_bind, Discipline.meets_reads, meets_revertIf,
    Discipline.meets_updates]
  intro initialized read fresh storage' written
  rcases ready with ⟨⟨admin, installed⟩, -, noIds, idle⟩ | ⟨next, sound⟩
  · have isInitialised : storage' = .initialised admin contHash := by
      simp only [installed, bind_eq_ok, pure_eq_ok] at written
      obtain ⟨stakeInfos, ⟨⟩, userInfos, ⟨⟩, rfl⟩ := written
      rfl
    subst isInitialised
    refine Registry.ready_setUp none idle ?_ ?_ ?_ noIds
      ⟨_, represents_initialised admin contHash⟩ rfl fun poolId => ?_
    · rw [installed]
      rfl
    · rw [installed]
      rfl
    · exact fun poolId => storedBytes_uninitialised ⟨admin, installed⟩
    · exact (represents_initialised admin contHash).storedBytes_eq
  · obtain ⟨book, represents⟩ := sound.wellFormed
    cases read
    exact absurd represents.initialized fresh

/-! ## The entry point that allocates -/

theorem meets_addPool {stakingToken rewardToken : ContractHash}
    {startTime endTime precision : UInt64} {totalReward : U256}
    (creates : registry.allocates k) (idle : ¬ registry.Busy stack)
    (few : (registry.ids v.log).length + 1 < 2 ^ 64) (ready : registry.Ready stack v) :
    registry.discipline.Meets stack k
      (addPool context stakingToken rewardToken startTime endTime precision totalReward)
      (fun _ => registry.Ready stack) v := by
  simp only [addPool, Discipline.meets_bind, Discipline.meets_reads, meets_revertIf,
    Discipline.meets_request]
  intro _ _ _ _ _ index readIndex
  have found : v.storage.index = some index := by
    simpa [getKey] using readIndex
  have sound : registry.Sound False index v := (ready.sound found).mono idle
  rw [Discipline.meets_updates]
  intro storage' written
  obtain ⟨fillGrows, fillKeeps, filled⟩ :=
    sound.fill idle (fills_of_putPool sound.wellFormed written)
  refine ⟨fillGrows, fillKeeps, fun spender _ => ?_⟩
  refine ⟨filled.ready fun _ => Registry.busy_cons.mpr (.inl creates),
    fun v' ready' grows => Discipline.meets_bind.mp ?_⟩
  have filledNow := filled.waited creates ready' grows
  refine Registry.meets_count filledNow idle (sound.length_ids ▸ few) ?_ rfl
  intro storage storage' wellFormed written
  cases written
  obtain ⟨book, represents⟩ := wellFormed
  exact {
    wellFormed := ⟨_, represents.setIndex _⟩
    index := rfl
    home := rfl
    slot := fun _ => rfl }

end Entries

/-! ## Runs -/

section Runs

variable {E : Type} {admin : AccountHash} {outside : E}

abbrev StakeConfig (E : Type) := Config Storage Failure TokenCall Event Entry E

def StakeConfig.installed (admin : AccountHash) (outside : E) : StakeConfig E where
  frames := []
  world := { storage := .installed admin, outside, log := [] }

theorem meets_program {stack : List Entry} {entry : Entry} {w : StakeWorld E}
    (permitted : registry.Lone stack w entry) (ready : registry.Ready stack w.inside) :
    registry.discipline.Meets stack entry entry.program (fun _ => registry.Ready stack)
      w.inside := by
  obtain ⟨⟨-, few⟩, alone⟩ := permitted
  obtain ⟨context, call⟩ := entry
  cases call with
  | init contHash => exact meets_init id ready
  | addPool stakingToken rewardToken startTime endTime precision totalReward =>
      exact meets_addPool trivial (alone trivial) (few trivial) ready
  | deposit amount poolId => exact meets_deposit id ready
  | withdraw amount poolId => exact meets_withdraw id ready
  | emergencyWithdraw poolId => exact meets_emergencyWithdraw id ready
  | stopReward poolId => exact meets_stopReward id ready
  | saveMe tokenHash amount => exact meets_saveMe id ready
  | setAdmin account => exact meets_setAdmin id ready

theorem ids_eq (log : List Event) :
    registry.ids log = (poolsCreated log).map StakePool.id := by
  rw [poolsCreated, List.map_filterMap]
  refine List.filterMap_congr fun event _ => ?_
  cases event <;> rfl

/-- The ids of the pools in a run in which no `add_pool` is made inside another
one. -/
theorem pool_ids_once {c c' : StakeConfig E}
    (run : SmallSteps Entry.program registry.Lone (StakeConfig.installed admin outside) c)
    (later : SmallSteps Entry.program registry.Lone c c') :
    ((poolsCreated c'.world.log).map StakePool.id).Nodup ∧
      (∀ index index', c.world.storage.index = some index →
        c'.world.storage.index = some index' → index ≤ index') ∧
      ∀ c'' frame, SmallStep Entry.program registry.Lone c' c'' →
        c'.frames.head? = some frame → frame.entry.2.creates →
        ∀ poolId pool, storedPool poolId c'.world.storage = some pool →
          storedPool poolId c''.world.storage = some pool := by
  obtain ⟨nodup, index, keeps⟩ := Registry.allocated_once
    (fun _ _ _ permitted ready => meets_program permitted ready) ⟨admin, rfl⟩ rfl rfl run
    later
  refine ⟨ids_eq _ ▸ nodup, index, fun c'' frame step innermost creates poolId pool found => ?_⟩
  obtain ⟨bytes, stored, unpacked⟩ := Option.bind_eq_some_iff.mp found
  exact Option.bind_eq_some_iff.mpr
    ⟨bytes, keeps c'' frame step innermost creates poolId bytes stored, unpacked⟩

end Runs

/-! ## Replaying scripted call-backs -/

namespace Sample

/-- The token makes one call whenever an `add_pool` of the deploy itself draws on
it. -/
def callsBackAddPool (back : Call) : List Entry → TokenCall → List Entry
  | [(context, .addPool _ _ _ _ _ _)], .transferFrom _ _ _ _ => [(context, back)]
  | _, _ => []

variable (permitted : List Entry → StakeWorld Erc20Ledger → Entry → Prop)
variable [∀ stack w entry, Decidable (permitted stack w entry)]

/-- The owner adds two pools, while the token calls back. -/
@[irreducible] def addedCalledBack? (back : Call) : Option (StakeWorld Erc20Ledger) :=
  execEntries Entry.program permitted
    (execNested Entry.program (Erc20Ledger.answer package) permitted
      (callsBackAddPool back) 2) []
    [({ caller := owner, blocktime := 0 }, .init package),
      ({ caller := owner, blocktime := 10 },
        .addPool tokenA tokenB 100 200 18 (units 1000)),
      ({ caller := owner, blocktime := 20 },
        .addPool tokenB tokenB 100 200 18 (units 500))]
    opening.world

variable {permitted} {back : Call}

theorem steps_addedCalledBack (success : (addedCalledBack? permitted back).isSome) :
    SmallSteps Entry.program permitted
      (StakeConfig.installed owner (.endowed 1000000))
      ⟨[], (addedCalledBack? permitted back).get success⟩ := by
  obtain ⟨w, replays⟩ := Option.isSome_iff_exists.mp success
  have same : (addedCalledBack? permitted back).get success = w := by
    simp [replays]
  rw [same]
  unfold addedCalledBack? at replays
  exact steps_of_execEntries replays

def addedInside : StakeWorld Erc20Ledger :=
  (addedCalledBack? registry.Reentrant (.addPool tokenB tokenA 50 90 18 (units 7))).get
    (by decide +kernel)

theorem steps_addedInside :
    SmallSteps Entry.program registry.Reentrant (StakeConfig.installed owner (.endowed 1000000))
      ⟨[], addedInside⟩ :=
  steps_addedCalledBack _

/-- A `deposit` inside each `add_pool`, into the first pool. -/
def depositedWhileAdding : StakeWorld Erc20Ledger :=
  (addedCalledBack? registry.Lone (.deposit (units 5) 0)).get (by decide +kernel)

theorem steps_depositedWhileAdding :
    SmallSteps Entry.program registry.Lone
      (StakeConfig.installed owner (.endowed 1000000)) ⟨[], depositedWhileAdding⟩ :=
  steps_addedCalledBack _

end Sample

end CasperContracts.Staking
