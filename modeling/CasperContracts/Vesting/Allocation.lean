import CasperContracts.Basis.Allocation
import CasperContracts.Vesting.Run

/-!
# Lock ids among tokens that call back

`lock` reads the index before it calls the token and writes it back after.  The
contract is a counter of lock ids in the sense of `Registry`; the other entry
points write only to entries they have found.
-/

namespace CasperContracts.Vesting

open CasperContracts.Basis Host Prog

def Call.creates : Call → Prop
  | .lock _ _ _ _ _ => True
  | _ => False

instance : DecidablePred Call.creates
  | .lock _ _ _ _ _ => .isTrue trivial
  | .init _ | .extendLock _ _ _ | .transferLock _ _ | .claim _ | .setAdmin _
  | .setPauseContract => .isFalse id

/-- A call and the deploy it belongs to. -/
abbrev Entry := Context × Call

def Entry.program (entry : Entry) : Contract Unit :=
  entry.2.program entry.1

def Event.created : Event → Option UInt64
  | .locked info => some info.id
  | .claimed _ => none

/-- Where the contract keeps its counter and the entries of the locks. -/
def registry : Registry Storage Event Entry ContractPackageHash (List UInt8) where
  fresh := Uninitialised
  wellFormed := fun storage => ∃ book, Represents storage book
  index := Storage.index
  home := Storage.selfContractHash
  slot := fun storage lockId => storedBytes lockId storage
  id? := Event.created
  allocates := fun entry => entry.2.creates

instance : DecidablePred registry.allocates :=
  fun entry => inferInstanceAs (Decidable entry.2.creates)

section Entries

variable {stack : List Entry} {k : Entry} {v : Inside Storage Event}
variable {context : Context} {storage storage' : Storage} {book book' : Book}
variable {lockId : UInt64} {home : ContractPackageHash}

/-! ## Writes -/

theorem fills_of_represents (represents : Represents storage book)
    (represents' : Represents storage' book') (index : book'.index = book.index)
    (selfHash : book'.selfHash = book.selfHash) {entry : Option VestInfo}
    (lookup : ∀ other, book'.entries.lookup other =
      if other = lockId then some entry else book.entries.lookup other) :
    registry.Fills lockId storage storage' where
  wellFormed := ⟨book', represents'⟩
  index := by
    change storage'.index = storage.index
    rw [represents'.index, represents.index, index]
  home := by
    change storage'.selfContractHash = storage.selfContractHash
    rw [represents'.selfHash, represents.selfHash, selfHash]
  others := by
    intro other different
    change storedBytes other storage' = storedBytes other storage
    rw [represents'.storedBytes_eq, represents.storedBytes_eq, lookup, if_neg different]
  filled := by
    change (storedBytes lockId storage').isSome
    rw [represents'.storedBytes_eq, lookup, if_pos rfl]
    rfl

theorem fills_of_dictionaryPut {info : VestInfo} (wellFormed : registry.wellFormed storage)
    (atHome : registry.home storage = some home)
    (written : dictionaryPut (numberedKey home.keyPrefix lockId) info.pack storage =
      .ok storage') : registry.Fills lockId storage storage' := by
  obtain ⟨book, represents⟩ := wellFormed
  cases represents.selfHash.symm.trans atHome
  obtain ⟨after, put, represents'⟩ := represents.dictionaryPut_eq lockId (some info)
  cases written.symm.trans put
  exact fills_of_represents represents represents' rfl rfl
    fun other => Book.putEntry_lookup book lockId other (some info)

theorem fills_of_updateStorage {info : VestInfo} {account : AccountHash} {known : Bool}
    (wellFormed : registry.wellFormed storage) (atHome : registry.home storage = some home)
    (written : updateStorage known (numberedKey home.keyPrefix lockId) info.pack lockId
      account.toChars storage = .ok storage') : registry.Fills lockId storage storage' := by
  obtain ⟨book, represents⟩ := wellFormed
  cases represents.selfHash.symm.trans atHome
  have entries : ∀ other, ((book.putEntry lockId (some info)).enlist known account
      lockId).entries.lookup other =
        if other = lockId then some (some info) else book.entries.lookup other := by
    intro other
    rw [Book.enlist_entries]
    exact Book.putEntry_lookup book lockId other (some info)
  refine fills_of_represents represents (represents.updateStorage_eq_ok written) ?_ ?_ entries
  · cases known <;> rfl
  · cases known <;> rfl

theorem fills_of_updateStorageTransferLock {info : VestInfo} {id : UInt64}
    {account newOwner : AccountHash} (wellFormed : registry.wellFormed storage)
    (atHome : registry.home storage = some home)
    (written : updateStorageTransferLock (numberedKey home.keyPrefix lockId) id
      account.toChars newOwner.toChars info.pack storage = .ok storage') :
    registry.Fills lockId storage storage' := by
  obtain ⟨book, represents⟩ := wellFormed
  cases represents.selfHash.symm.trans atHome
  obtain ⟨idx, -, represents'⟩ := represents.updateStorageTransferLock_eq_ok written
  exact fills_of_represents represents represents' rfl rfl
    fun other => Book.putEntry_lookup book lockId other (some info)

theorem fills_of_storeClaimed {lock : VestInfo} {known : Bool}
    (wellFormed : registry.wellFormed storage) (atHome : registry.home storage = some home)
    (written : storeClaimed context known lockId lock (numberedKey home.keyPrefix lockId)
      storage = .ok storage') : registry.Fills lockId storage storage' := by
  obtain ⟨book, represents⟩ := wellFormed
  cases represents.selfHash.symm.trans atHome
  obtain ⟨book', stored, represents'⟩ := represents.storeClaimed_eq_ok written
  refine fills_of_represents represents represents' ?_ ?_ stored.lookup
  · cases stored <;> rfl
  · cases stored <;> rfl

/-! ## Entry points that do not allocate -/

@[simp] theorem meets_revertIf {D : Discipline Storage Event Entry} {condition : Prop}
    [Decidable condition] {error : ApiError} {post : Unit → Inside Storage Event → Prop} :
    D.Meets stack k (revertIf condition error) post v ↔ (¬ condition → post () v) :=
  Discipline.meets_ite_fail

theorem plain_revertIf {condition : Prop} [Decidable condition] {error : ApiError} :
    registry.Plain home lockId stack k (revertIf condition error) := by
  intro v holds
  rw [meets_revertIf]
  exact fun _ => holds

/-- The lock an entry point has found stays where it is. -/
theorem holds_of_getLock {found : VestInfo × DictKey} (ready : registry.Ready stack v)
    (read : getLock context lockId v.storage = .ok found) :
    ∃ home, registry.Holds home lockId stack v ∧
      found.2 = numberedKey home.keyPrefix lockId := by
  rcases ready with ⟨⟨admin, paused, fresh⟩, -⟩ | ⟨next, sound⟩
  · rw [fresh] at read
    exact absurd read getLock_uninitialised
  · obtain ⟨book, represents⟩ := sound.wellFormed
    obtain ⟨-, live, -, key⟩ := represents.getLock_eq_ok.mp read
    refine ⟨book.selfHash, ⟨⟨next, sound⟩, represents.selfHash, ?_⟩, key⟩
    change (storedBytes lockId v.storage).isSome
    rw [represents.storedBytes_eq, Book.lock_eq_some.mp live]
    rfl

private theorem meets_getLock_bind {f : VestInfo × DictKey → Contract Unit}
    (ready : registry.Ready stack v)
    (plain : ∀ home lock,
      registry.Plain home lockId stack k (f (lock, numberedKey home.keyPrefix lockId))) :
    registry.discipline.Meets stack k (Prog.reads (getLock context lockId) >>= f)
      (fun _ => registry.Ready stack) v := by
  rw [Discipline.meets_bind, Discipline.meets_reads]
  intro found read
  obtain ⟨home, holds, key⟩ := holds_of_getLock ready read
  obtain ⟨lock, _⟩ := found
  subst key
  exact (plain home lock v holds).mono fun _ _ => Registry.Holds.ready

private theorem meets_unpaused {p : Contract Unit} {post : Unit → Inside Storage Event → Prop}
    (meets : registry.discipline.Meets stack k p post v) :
    registry.discipline.Meets stack k
      (do
        let paused ← isPaused
        revertIf paused (.user 14)
        p) post v := by
  simp only [isPaused, Discipline.meets_bind, Discipline.meets_reads, meets_revertIf]
  exact fun _ _ _ => meets

theorem meets_extendLock {index : UInt32} {newRelease : UInt64}
    (none : ¬ registry.allocates k) (ready : registry.Ready stack v) :
    registry.discipline.Meets stack k (extendLock context lockId index newRelease)
      (fun _ => registry.Ready stack) v := by
  refine meets_unpaused (meets_getLock_bind ready fun home lock => ?_)
  dsimp only
  split
  · exact Registry.plain_fail
  · exact plain_revertIf.bind fun _ => Registry.plain_updates none
      fun _ _ wellFormed atHome written => fills_of_dictionaryPut wellFormed atHome written

theorem meets_transferLock {newOwner : AccountHash}
    (none : ¬ registry.allocates k) (ready : registry.Ready stack v) :
    registry.discipline.Meets stack k (transferLock context lockId newOwner)
      (fun _ => registry.Ready stack) v := by
  refine meets_unpaused (meets_getLock_bind ready fun home lock => ?_)
  exact Registry.plain_updates none fun _ _ wellFormed atHome written =>
    fills_of_updateStorageTransferLock wellFormed atHome written

theorem meets_claim (none : ¬ registry.allocates k) (ready : registry.Ready stack v) :
    registry.discipline.Meets stack k (claim context lockId)
      (fun _ => registry.Ready stack) v := by
  refine meets_unpaused (meets_getLock_bind ready fun home lock => ?_)
  refine Registry.plain_ofExcept.bind fun paid => ?_
  refine plain_revertIf.bind fun _ => (Registry.plain_request none).bind fun _ => ?_
  refine Registry.Plain.bind (Registry.plain_updates none ?_) fun _ => ?_
  · exact fun _ _ wellFormed atHome written => fills_of_storeClaimed wellFormed atHome written
  · exact Registry.plain_record none rfl

theorem meets_setAdmin {account : AccountHash} (none : ¬ registry.allocates k)
    (ready : registry.Ready stack v) :
    registry.discipline.Meets stack k (setAdmin context account)
      (fun _ => registry.Ready stack) v := by
  simp only [setAdmin, Discipline.meets_bind, Discipline.meets_reads, meets_revertIf,
    Discipline.meets_updates]
  intro admin _ _ storage' written
  cases written
  refine ready.step none {
    fresh := ?_
    wellFormed := ?_
    index := rfl
    home := rfl
    slot := fun _ => rfl
    ids := rfl }
  · intro _ fresh
    obtain ⟨admin, paused, installed⟩ := fresh
    exact ⟨account, paused, by simp [installed, Storage.installed]⟩
  · intro wellFormed
    obtain ⟨book, represents⟩ := wellFormed
    exact ⟨_, represents.setAdmin account⟩

theorem meets_setPauseContract (none : ¬ registry.allocates k)
    (ready : registry.Ready stack v) :
    registry.discipline.Meets stack k (setPauseContract context)
      (fun _ => registry.Ready stack) v := by
  simp only [setPauseContract, isPaused, Discipline.meets_bind, Discipline.meets_reads,
    meets_revertIf, Discipline.meets_updates]
  intro admin _ _ paused _ storage' written
  cases written
  refine ready.step none {
    fresh := ?_
    wellFormed := ?_
    index := rfl
    home := rfl
    slot := fun _ => rfl
    ids := rfl }
  · intro _ fresh
    obtain ⟨admin, _, installed⟩ := fresh
    exact ⟨admin, !paused, by simp [installed, Storage.installed]⟩
  · intro wellFormed
    obtain ⟨book, represents⟩ := wellFormed
    exact ⟨_, represents.setPaused _⟩

theorem meets_init {contHash : ContractPackageHash} (none : ¬ registry.allocates k)
    (ready : registry.Ready stack v) :
    registry.discipline.Meets stack k (init contHash) (fun _ => registry.Ready stack) v := by
  simp only [init, Discipline.meets_bind, Discipline.meets_reads, meets_revertIf,
    Discipline.meets_updates]
  intro initialized read fresh storage' written
  rcases ready with ⟨⟨admin, paused, installed⟩, -, noIds, idle⟩ | ⟨next, sound⟩
  · have isInitialised : storage' = .initialised admin paused contHash := by
      simp only [installed, bind_eq_ok, pure_eq_ok] at written
      obtain ⟨lockInfos, ⟨⟩, rfl⟩ := written
      rfl
    subst isInitialised
    refine Registry.ready_setUp none idle ?_ ?_ ?_ noIds
      ⟨_, represents_initialised admin paused contHash⟩ rfl fun lockId => ?_
    · rw [installed]
      rfl
    · rw [installed]
      rfl
    · exact fun lockId => storedBytes_uninitialised ⟨admin, paused, installed⟩
    · exact (represents_initialised admin paused contHash).storedBytes_eq
  · obtain ⟨book, represents⟩ := sound.wellFormed
    cases read
    exact absurd represents.initialized fresh

/-! ## The entry point that allocates -/

theorem meets_lock {tokh : ContractHash} {cliffAmount : U256}
    {cliffDurtime timeBetweenLocks : UInt64} {numberOfLocks : UInt32}
    (creates : registry.allocates k) (idle : ¬ registry.Busy stack)
    (few : (registry.ids v.log).length + 1 < 2 ^ 64) (ready : registry.Ready stack v) :
    registry.discipline.Meets stack k
      (lock context tokh cliffAmount cliffDurtime timeBetweenLocks numberOfLocks)
      (fun _ => registry.Ready stack) v := by
  refine meets_unpaused ?_
  simp only [Discipline.meets_bind, Discipline.meets_reads, Discipline.meets_ofExcept,
    meets_revertIf, Discipline.meets_request]
  intro _ _ firstUnlock _ _ schedules _ index readIndex key readKey spender _
  have found : v.storage.index = some index := by
    simpa [Staking.getKey] using readIndex
  have sound : registry.Sound False index v := (ready.sound found).mono idle
  obtain ⟨book, represents⟩ := sound.wellFormed
  rw [represents.makeLockKeyId_eq, Except.ok.injEq] at readKey
  subst readKey
  refine ⟨sound.ready False.elim, fun v' ready' grows => ?_⟩
  have soundNow := sound.waited creates ready' grows
  have atHome := grows.home book.selfHash represents.selfHash
  rw [Discipline.meets_updates]
  intro storage' written
  obtain ⟨fillGrows, fillKeeps, filled⟩ := soundNow.fill idle
    (fills_of_updateStorage soundNow.wellFormed atHome written)
  refine ⟨fillGrows, fillKeeps, Discipline.meets_bind.mp ?_⟩
  refine Registry.meets_count filled idle (sound.length_ids ▸ few) ?_ rfl
  intro storage storage' wellFormed written
  cases written
  obtain ⟨book, represents⟩ := wellFormed
  exact {
    wellFormed := ⟨_, represents.setIndex _⟩
    index := rfl
    home := rfl
    slot := fun _ => rfl }

end Entries

/-! ## Runs -/

section Runs

variable {E : Type} {admin : AccountHash} {paused : Bool} {outside : E}

abbrev VestConfig (E : Type) := Config Storage Failure TokenCall Event Entry E

def VestConfig.installed (admin : AccountHash) (paused : Bool) (outside : E) :
    VestConfig E where
  frames := []
  world := { storage := .installed admin paused, outside, log := [] }

theorem meets_program {stack : List Entry} {entry : Entry} {w : VestWorld E}
    (permitted : registry.Lone stack w entry) (ready : registry.Ready stack w.inside) :
    registry.discipline.Meets stack entry entry.program (fun _ => registry.Ready stack)
      w.inside := by
  obtain ⟨⟨-, few⟩, alone⟩ := permitted
  obtain ⟨context, call⟩ := entry
  cases call with
  | init contHash => exact meets_init id ready
  | lock tokh cliffAmount cliffDurtime timeBetweenLocks numberOfLocks =>
      exact meets_lock trivial (alone trivial) (few trivial) ready
  | extendLock lockId index newRelease => exact meets_extendLock id ready
  | transferLock lockId newOwner => exact meets_transferLock id ready
  | claim lockId => exact meets_claim id ready
  | setAdmin account => exact meets_setAdmin id ready
  | setPauseContract => exact meets_setPauseContract id ready

theorem ids_eq (log : List Event) : registry.ids log = (locksIn log).map VestInfo.id := by
  rw [locksIn, List.map_filterMap]
  refine List.filterMap_congr fun event _ => ?_
  cases event <;> rfl

/-- The ids of the locks in a run in which no `lock` is made inside another one. -/
theorem lock_ids_once {c c' : VestConfig E}
    (run : SmallSteps Entry.program registry.Lone (VestConfig.installed admin paused outside) c)
    (later : SmallSteps Entry.program registry.Lone c c') :
    ((locksIn c'.world.log).map VestInfo.id).Nodup ∧
      (∀ index index', c.world.storage.index = some index →
        c'.world.storage.index = some index' → index ≤ index') ∧
      ∀ c'' frame, SmallStep Entry.program registry.Lone c' c'' →
        c'.frames.head? = some frame → frame.entry.2.creates →
        ∀ lockId lock, storedLock lockId c'.world.storage = some lock →
          storedLock lockId c''.world.storage = some lock := by
  obtain ⟨nodup, index, keeps⟩ := Registry.allocated_once
    (fun _ _ _ permitted ready => meets_program permitted ready) ⟨admin, paused, rfl⟩ rfl
    rfl run later
  refine ⟨ids_eq _ ▸ nodup, index, fun c'' frame step innermost creates lockId lock live => ?_⟩
  obtain ⟨bytes, stored, unpacked⟩ := Option.bind_eq_some_iff.mp live
  exact Option.bind_eq_some_iff.mpr
    ⟨bytes, keeps c'' frame step innermost creates lockId bytes stored, unpacked⟩

end Runs

/-! ## Replaying scripted call-backs -/

namespace Sample

open Staking.Sample

/-- The second token makes one call whenever a `lock` of the deploy itself draws on
it. -/
def callsBack (back : Call) : List Entry → TokenCall → List Entry
  | [(context, .lock _ _ _ _ _)], .transferFrom token _ _ _ =>
      if token = tokenB then [(context, back)] else []
  | _, _ => []

variable (permitted : List Entry → VestWorld Erc20Ledger → Entry → Prop)
variable [∀ stack w entry, Decidable (permitted stack w entry)]

/-- A staker locks twice, and the second token calls back. -/
@[irreducible] def calledBack? (back : Call) : Option (VestWorld Erc20Ledger) :=
  execEntries Entry.program permitted
    (execNested Entry.program (Erc20Ledger.answer package) permitted (callsBack back) 2) []
    [({ caller := owner, blocktime := 0 }, .init package),
      ({ caller := staker 1, blocktime := 10 }, .lock tokenA (units 30) 90 50 3),
      ({ caller := staker 1, blocktime := 20 }, .lock tokenB (units 10) 90 0 1)]
    opening

variable {permitted} {back : Call}

theorem steps_calledBack (success : (calledBack? permitted back).isSome) :
    SmallSteps Entry.program permitted
      (VestConfig.installed owner false (.endowed 1000000))
      ⟨[], (calledBack? permitted back).get success⟩ := by
  obtain ⟨w, replays⟩ := Option.isSome_iff_exists.mp success
  have same : (calledBack? permitted back).get success = w := by
    simp [replays]
  rw [same]
  unfold calledBack? at replays
  exact steps_of_execEntries replays

def lockedInside : VestWorld Erc20Ledger :=
  (calledBack? registry.Reentrant (.lock tokenA (units 4) 90 0 1)).get (by decide +kernel)

example : (locksIn lockedInside.log).map VestInfo.id = [0, 1, 1] := by decide +kernel

theorem steps_lockedInside :
    SmallSteps Entry.program registry.Reentrant
      (VestConfig.installed owner false (.endowed 1000000)) ⟨[], lockedInside⟩ :=
  steps_calledBack _

def givenAwayInside : VestWorld Erc20Ledger :=
  (calledBack? registry.Lone (.transferLock 0 (staker 2))).get (by decide +kernel)

theorem steps_givenAwayInside :
    SmallSteps Entry.program registry.Lone
      (VestConfig.installed owner false (.endowed 1000000)) ⟨[], givenAwayInside⟩ :=
  steps_calledBack _

end Sample

end CasperContracts.Vesting
