import CasperContracts.Staking.Run
import CasperContracts.Vesting.Change

/-!
# Runs of the vesting contract

The contract's entry points among quiet tokens, the book as a model of it, and
what every invariant of the book rests on: ids are handed out in order, a lock
carries its own id, and the place of the next lock is free.  `EntryChange`
says what one call can do to the entry of one lock.
-/

namespace CasperContracts.Vesting

open CasperContracts.Basis Host Prog

/-! ## Before `init` -/

/-- The named keys of an installed contract; administration is possible before
`init`. -/
def Storage.installed (admin : AccountHash) (paused : Bool) : Storage where
  admin := admin
  initialized := false
  paused := paused
  index := none
  selfContractHash := none
  lockInfos := none
  idArrays := ∅

def Uninitialised (storage : Storage) : Prop :=
  ∃ admin paused, storage = .installed admin paused

/-- The book `init` leaves behind. -/
def Book.empty (admin : AccountHash) (paused : Bool) (selfHash : ContractPackageHash) :
    Book where
  admin := admin
  paused := paused
  index := 0
  selfHash := selfHash
  entries := ∅
  ids := ∅

def Storage.initialised (admin : AccountHash) (paused : Bool)
    (selfHash : ContractPackageHash) : Storage where
  admin := admin
  initialized := true
  paused := paused
  index := some 0
  selfContractHash := some selfHash
  lockInfos := some ∅
  idArrays := ∅

theorem represents_initialised (admin : AccountHash) (paused : Bool)
    (selfHash : ContractPackageHash) :
    Represents (.initialised admin paused selfHash) (.empty admin paused selfHash) where
  admin := rfl
  initialized := rfl
  paused := rfl
  index := rfl
  selfHash := rfl
  entries := ⟨∅, rfl, FiniteStore.encodes_empty⟩
  ids := FiniteStore.encodes_empty

section Uninitialised

variable {E : Type} {respond : TokenCall → VestWorld E → VestWorld E → Prop}
variable {context : Context} {call : Call} {w w' : VestWorld E} {lockId : UInt64}

theorem getLock_uninitialised {admin : AccountHash} {paused : Bool}
    {found : VestInfo × DictKey} :
    getLock context lockId (.installed admin paused) ≠ .ok found := by
  simp [getLock, isIdValid, Staking.getKey, Storage.installed]

theorem storedBytes_uninitialised {storage : Storage} (fresh : Uninitialised storage) :
    storedBytes lockId storage = none := by
  obtain ⟨admin, paused, rfl⟩ := fresh
  rfl

theorem storedLock_uninitialised {storage : Storage} (fresh : Uninitialised storage) :
    storedLock lockId storage = none := by
  rw [storedLock, storedBytes_uninitialised fresh]
  rfl

theorem not_claim_uninitialised (fresh : Uninitialised w.storage) :
    ¬ Runs respond (claim context lockId) w () w' := by
  intro run
  obtain ⟨admin, paused, isFresh⟩ := fresh
  simp only [claim, runs_knowsCaller_bind, runs_isPaused_bind, runs_revertIf_bind,
    runs_reads_bind, isFresh] at run
  obtain ⟨-, found, read, -⟩ := run
  exact absurd read getLock_uninitialised

/-- Before `init` only `init` and the administration succeed, and no token is
called. -/
theorem entry_of_uninitialised (fresh : Uninitialised w.storage)
    (run : Runs respond (call.program context) w () w') :
    w'.log = w.log ∧ (Uninitialised w'.storage ∨
      ∃ admin paused selfHash, Represents w'.storage (.empty admin paused selfHash)) := by
  obtain ⟨admin, paused, isFresh⟩ := fresh
  cases call with
  | init contHash =>
      obtain ⟨-, rfl⟩ := runs_init run
      rw [isFresh]
      exact ⟨rfl, .inr ⟨admin, paused, contHash, represents_initialised _ _ _⟩⟩
  | lock tokh cliffAmount cliffDurtime timeBetweenLocks numberOfLocks =>
      simp only [Call.program, lock, runs_knowsCaller_bind, runs_isPaused_bind,
        runs_revertIf_bind, runs_reads_bind, isFresh, unwrapOrRevert, unwrapOrRevertWith_eq_ok,
        Storage.installed] at run
      obtain ⟨-, _, ⟨⟩, -⟩ := run
  | extendLock lockId index newRelease =>
      simp only [Call.program, extendLock, runs_isPaused_bind, runs_revertIf_bind,
        runs_reads_bind, isFresh] at run
      obtain ⟨-, found, read, -⟩ := run
      exact absurd read getLock_uninitialised
  | transferLock lockId newOwner =>
      simp only [Call.program, transferLock, runs_isPaused_bind, runs_revertIf_bind,
        runs_reads_bind, isFresh] at run
      obtain ⟨-, found, read, -⟩ := run
      exact absurd read getLock_uninitialised
  | claim lockId => exact absurd run (not_claim_uninitialised ⟨admin, paused, isFresh⟩)
  | setAdmin account =>
      simp only [Call.program, setAdmin, runs_reads_bind, runs_revertIf_bind,
        runs_updates] at run
      obtain ⟨_, -, -, storage, ⟨⟩, rfl⟩ := run
      exact ⟨rfl, .inl ⟨account, paused, by simp [isFresh, Storage.installed]⟩⟩
  | setPauseContract =>
      simp only [Call.program, setPauseContract, runs_reads_bind, runs_revertIf_bind,
        runs_isPaused_bind, runs_updates] at run
      obtain ⟨_, -, -, storage, ⟨⟩, rfl⟩ := run
      exact ⟨rfl, .inl ⟨admin, !paused, by simp [isFresh, Storage.installed]⟩⟩

end Uninitialised

/-! ## The model -/

section Model

variable {E : Type} (answer : TokenCall → E → E → Prop) (drift : E → E → Prop)

def setting : Setting Context Call UInt64 Storage Failure TokenCall Event E where
  program := Call.program
  time := Context.blocktime
  answer := answer
  drift := drift
  permitted := fun _ _ _ => True

instance (context : Context) (call : Call) (storage : Storage) :
    Decidable ((setting answer drift).permitted context call storage) :=
  inferInstanceAs (Decidable True)

def bookModel : Model (setting answer drift) Book where
  fresh := Uninitialised
  initial := fun book => ∃ admin paused selfHash, book = .empty admin paused selfHash
  represents := Represents
  Change := Change
  setUp := by
    intro context entry w w' fresh run
    obtain ⟨log, still | ⟨admin, paused, selfHash, represents⟩⟩ :=
      entry_of_uninitialised fresh run
    · exact ⟨log, .inl still⟩
    · exact ⟨log, .inr ⟨_, ⟨admin, paused, selfHash, rfl⟩, represents⟩⟩
  change := fun represents run => change_of_runs represents run

abbrev VestHistory (start : UInt64) (first : VestWorld E) :=
  History (setting answer drift) start first

end Model

/-! ## One entry -/

def Event.lockId : Event → UInt64
  | .locked info => info.id
  | .claimed payout => payout.lockId

def locksIn (log : List Event) : List VestInfo :=
  log.filterMap fun event =>
    match event with
    | .locked info => some info
    | .claimed _ => none

@[simp] theorem locksIn_append (log more : List Event) :
    locksIn (log ++ more) = locksIn log ++ locksIn more :=
  List.filterMap_append

/-- What the recipient of a lock can do to it. -/
inductive Touch (context : Context) (lockId : UInt64) (lock : VestInfo) :
    Option VestInfo → List TokenCall → List Event → Prop where
  | extend {index : Nat} {newRelease : UInt64} {schedule : LockSchedule}
      (here : lock.schedules[index]? = some schedule)
      (later : schedule.release ≤ newRelease) :
      Touch context lockId lock
        (some { lock with
          schedules := lock.schedules.set index { schedule with release := newRelease } })
        [] []
  | transfer {newOwner : AccountHash} :
      Touch context lockId lock (some { lock with recipient := newOwner }) [] []
  | claim {amount : U256} {entry : Option VestInfo}
      (paid : amount.toNat + remaining (lock.claimed context.blocktime).schedules =
        remaining lock.schedules)
      (nonzero : 0 < amount.toNat)
      (left : entry = if remaining (lock.claimed context.blocktime).schedules = 0 then none
        else some (lock.claimed context.blocktime)) :
      Touch context lockId lock entry
        [InteractErc20.transfer lock.tokenHash context.caller amount]
        [.claimed {
          lockId
          payee := context.caller
          timestamp := context.blocktime
          amount
          before := lock.schedules
          after := (lock.claimed context.blocktime).schedules }]

/-- What a call does to the entry of one lock. -/
inductive EntryChange (context : Context) (book : Book) (lockId : UInt64)
    (requests : List TokenCall) (events : List Event) (book' : Book) : Prop where
  | untouched (same : book'.entries.lookup lockId = book.entries.lookup lockId)
      (others : ∀ event ∈ events, event.lockId ≠ lockId)
  | created {info : VestInfo} (next : lockId = book.index) (id : info.id = lockId)
      (fits : remaining info.schedules < 2 ^ 256)
      (stored : book'.entries.lookup lockId = some (some info))
      (events_eq : events = [.locked info])
  | touched {lock : VestInfo} {entry : Option VestInfo}
      (found : book.lock lockId = some lock) (owned : lock.recipient = context.caller)
      (stored : book'.entries.lookup lockId = some entry)
      (touch : Touch context lockId lock entry requests events)

section Change

variable {context : Context} {book book' : Book} {call : Call} {requests : List TokenCall}
  {events log : List Event} {lockId : UInt64}

theorem Stored.lookup {caller : AccountHash} {left : VestInfo}
    (stored : Stored book caller lockId left book') (other : UInt64) :
    book'.entries.lookup other =
      if other = lockId then some (if remaining left.schedules = 0 then none else some left)
      else book.entries.lookup other := by
  cases stored with
  | part some => rw [Book.putEntry_lookup, if_neg some]
  | finished nothing listed =>
      rw [if_pos nothing]
      exact Book.putEntry_lookup book lockId other none

/-- A call touches one entry at most, and only on behalf of its recipient. -/
theorem Change.entry (change : Change context book call requests events book')
    (lockId : UInt64) : EntryChange context book lockId requests events book' := by
  cases change with
  | @lock _ cliffAmount _ _ _ info unpaused new =>
      have stored : ({ (book.putEntry book.index (some info)).pushId context.caller
          book.index with index := book.index + 1 } : Book).entries.lookup lockId =
          if lockId = book.index then some (some info) else book.entries.lookup lockId :=
        Book.putEntry_lookup book book.index lockId _
      by_cases isNext : lockId = book.index
      · rw [if_pos isNext] at stored
        exact .created isNext (new.id.trans isNext.symm)
          (lt_of_le_of_lt (remaining_newSchedules_le new.schedules) cliffAmount.isLt) stored rfl
      · rw [if_neg isNext] at stored
        refine .untouched stored fun event member => ?_
        rw [List.mem_singleton.mp member]
        intro same
        exact isNext (same.symm.trans new.id)
  | @extendLock other index newRelease lock schedule access here later =>
      have stored := Book.putEntry_lookup book other lockId (some { lock with
        schedules := lock.schedules.set index.toNat { schedule with release := newRelease } })
      by_cases same : lockId = other
      · subst same
        rw [if_pos rfl] at stored
        exact .touched access.found access.owned stored (.extend here later)
      · rw [if_neg same] at stored
        exact .untouched stored (by simp)
  | @transferLock other newOwner lock idx access listed =>
      have stored : (((book.dropId context.caller idx).putEntry other (some { lock with
          recipient := newOwner })).pushId newOwner lock.id).entries.lookup lockId =
          if lockId = other then some (some { lock with recipient := newOwner })
          else book.entries.lookup lockId :=
        Book.putEntry_lookup (book.dropId context.caller idx) other lockId _
      by_cases same : lockId = other
      · subst same
        rw [if_pos rfl] at stored
        exact .touched access.found access.owned stored .transfer
      · rw [if_neg same] at stored
        exact .untouched stored (by simp)
  | @claim other lock amount _ access paid nonzero kept =>
      have stored := kept.lookup lockId
      by_cases same : lockId = other
      · subst same
        rw [if_pos rfl] at stored
        exact .touched access.found access.owned stored (.claim paid nonzero rfl)
      · rw [if_neg same] at stored
        refine .untouched stored fun event member => ?_
        rw [List.mem_singleton.mp member]
        exact fun equal => same equal.symm
  | setAdmin admin => exact .untouched rfl (by simp)
  | setPauseContract admin => exact .untouched rfl (by simp)

/-! ## Ids in order -/

/-- Ids are handed out in order: what is stored or recorded has an id below the
index, and a lock carries the id it is stored under. -/
structure Sound (book : Book) (log : List Event) : Prop where
  index : book.index.toNat = (locksIn log).length
  own : ∀ lockId lock, book.lock lockId = some lock → lock.id = lockId
  below : ∀ lockId entry, book.entries.lookup lockId = some entry → lockId < book.index
  logged : ∀ event ∈ log, event.lockId < book.index

def FewLocks (log : List Event) : Prop :=
  (locksIn log).length < 2 ^ 64

instance (log : List Event) : Decidable (FewLocks log) :=
  inferInstanceAs (Decidable (_ < _))

theorem FewLocks.earlier {more : List Event} (few : FewLocks (log ++ more)) :
    FewLocks log := by
  rw [FewLocks, locksIn_append, List.length_append] at few
  exact lt_of_le_of_lt (Nat.le_add_right _ _) few

theorem Sound.vacant (sound : Sound book log) : book.entries.lookup book.index = none := by
  cases found : book.entries.lookup book.index with
  | none => rfl
  | some entry => exact absurd (sound.below _ _ found) (UInt64.lt_irrefl _)

theorem Sound.found_below {lock : VestInfo} (sound : Sound book log)
    (found : book.lock lockId = some lock) : lockId < book.index :=
  sound.below lockId _ (Book.lock_eq_some.mp found)

theorem sound_empty {admin : AccountHash} {paused : Bool} {selfHash : ContractPackageHash} :
    Sound (.empty admin paused selfHash) [] where
  index := rfl
  own := by simp [Book.lock, Book.empty]
  below := by simp [Book.empty]
  logged := by simp

/-- The index moves with the creation of a lock, and with nothing else. -/
theorem Change.index_cases (change : Change context book call requests events book') :
    (locksIn events = [] ∧ book'.index = book.index) ∨
      ∃ info, events = [.locked info] ∧ info.id = book.index ∧
        book'.index = book.index + 1 := by
  cases change with
  | lock unpaused new => exact .inr ⟨_, rfl, new.id, rfl⟩
  | claim access paid nonzero stored => cases stored <;> exact .inl ⟨rfl, rfl⟩
  | extendLock => exact .inl ⟨rfl, rfl⟩
  | transferLock => exact .inl ⟨rfl, rfl⟩
  | setAdmin => exact .inl ⟨rfl, rfl⟩
  | setPauseContract => exact .inl ⟨rfl, rfl⟩

theorem Sound.index_eq (sound : Sound book log) (few : FewLocks (log ++ events))
    (change : Change context book call requests events book') :
    book'.index.toNat = book.index.toNat + (locksIn events).length := by
  rw [FewLocks, locksIn_append, List.length_append, ← sound.index] at few
  rcases change.index_cases with ⟨none, same⟩ | ⟨info, rfl, -, next⟩
  · rw [none, same]
    rfl
  · change _ + 1 < 2 ^ 64 at few
    rw [next, UInt64.toNat_add]
    exact Nat.mod_eq_of_lt few

theorem Touch.left_cases {lock lock' : VestInfo} (touch : Touch context lockId lock
    (some lock') requests events) :
    (∃ index newRelease schedule, lock.schedules[index]? = some schedule ∧
      schedule.release ≤ newRelease ∧ lock' = { lock with
        schedules := lock.schedules.set index { schedule with release := newRelease } }) ∨
    (∃ newOwner, lock' = { lock with recipient := newOwner }) ∨
    lock' = lock.claimed context.blocktime := by
  generalize isEntry : some lock' = entry at touch
  cases touch with
  | @extend index newRelease schedule here later =>
      cases isEntry
      exact .inl ⟨index, newRelease, schedule, here, later, rfl⟩
  | @transfer newOwner =>
      cases isEntry
      exact .inr (.inl ⟨newOwner, rfl⟩)
  | claim paid nonzero left =>
      subst isEntry
      split at left
      · cases left
      · exact .inr (.inr (Option.some.inj left))

private theorem Touch.own {lock lock' : VestInfo} (touch : Touch context lockId lock
    (some lock') requests events) : lock'.id = lock.id := by
  rcases touch.left_cases with ⟨_, _, _, -, -, rfl⟩ | ⟨_, rfl⟩ | rfl
  · rfl
  · rfl
  · rfl

theorem Touch.remaining_le {lock lock' : VestInfo} (touch : Touch context lockId lock
    (some lock') requests events) :
    remaining lock'.schedules ≤ remaining lock.schedules := by
  rcases touch.left_cases with ⟨index, newRelease, schedule, here, -, rfl⟩ | ⟨_, rfl⟩ | rfl
  · exact (remaining_set here).le
  · exact le_refl _
  · exact remaining_claimed_le

theorem Sound.change (sound : Sound book log) (few : FewLocks (log ++ events))
    (change : Change context book call requests events book') :
    Sound book' (log ++ events) := by
  have indexed := sound.index_eq few change
  have le : book.index ≤ book'.index := by
    rw [UInt64.le_iff_toNat_le, indexed]
    exact Nat.le_add_right _ _
  have below : ∀ lockId entry, book'.entries.lookup lockId = some entry →
      lockId < book'.index := by
    intro lockId entry stored
    cases change.entry lockId with
    | untouched same => exact UInt64.lt_of_lt_of_le (sound.below _ _ (same ▸ stored)) le
    | touched found => exact UInt64.lt_of_lt_of_le (sound.found_below found) le
    | created next _ _ _ logs =>
        subst logs
        rw [UInt64.lt_iff_toNat_lt, indexed, next]
        exact Nat.lt_succ_self _
  refine ⟨?_, ?_, below, ?_⟩
  · rw [indexed, sound.index, locksIn_append, List.length_append]
  · intro lockId lock found
    rw [Book.lock_eq_some] at found
    cases change.entry lockId with
    | untouched same => exact sound.own lockId lock (Book.lock_eq_some.mpr (same ▸ found))
    | created _ id _ stored =>
        cases stored.symm.trans found
        exact id
    | touched foundBefore _ stored touch =>
        cases stored.symm.trans found
        exact touch.own.trans (sound.own lockId _ foundBefore)
  · intro event member
    rcases List.mem_append.mp member with earlier | new
    · exact UInt64.lt_of_lt_of_le (sound.logged event earlier) le
    · cases change.entry event.lockId with
      | untouched _ others => exact absurd rfl (others event new)
      | touched found => exact UInt64.lt_of_lt_of_le (sound.found_below found) le
      | created _ _ _ stored => exact below _ _ stored

end Change

/-! ## Laws of the book -/

section Law

variable {E : Type} (answer : TokenCall → E → E → Prop) (drift : E → E → Prop)

/-- What every call keeps of book, tokens and log while the ids are in order. -/
structure Law (X : Book → E → List Event → Prop) : Prop where
  drift : ∀ {book e e' log}, X book e log → drift e e' → X book e' log
  change : ∀ {context call book book' requests events e e' log}, Sound book log →
    X book e log → Change context book call requests events book' →
    Answers answer requests e e' → X book' e' (log ++ events)

variable {answer drift} {X : Book → E → List Event → Prop}

theorem Law.and {Y : Book → E → List Event → Prop} (one : Law answer drift X)
    (other : Law answer drift Y) :
    Law answer drift fun book e log => X book e log ∧ Y book e log where
  drift := fun both drifts => ⟨one.drift both.1 drifts, other.drift both.2 drifts⟩
  change := fun sound both change answered =>
    ⟨one.change sound both.1 change answered, other.change sound both.2 change answered⟩

private theorem Law.invariant (law : Law answer drift X) :
    (bookModel answer drift).Invariant fun _ book e log =>
      FewLocks log → Sound book log ∧ X book e log where
  wait := fun holds _ => holds
  drift := by
    intro now book e e' log holds drifts few
    obtain ⟨sound, x⟩ := holds few
    exact ⟨sound, law.drift x drifts⟩
  change := by
    intro now context call requests events book book' e e' log storage holds _ _ _ change
      answered few
    obtain ⟨sound, x⟩ := holds few.earlier
    exact ⟨sound.change few change, law.change sound x change answered⟩

variable {start now later : UInt64} {first w w' : VestWorld E} {book : Book}
  {steps more : List (Step Context Call Storage E Event)}

/-- A law of the empty book holds in every state reached from the installation. -/
theorem Law.reached (law : Law answer drift X)
    (initially : ∀ admin paused selfHash e, X (.empty admin paused selfHash) e [])
    (fresh : Uninitialised first.storage) (empty : first.log = [])
    (history : VestHistory answer drift start first steps now w) (few : FewLocks w.log) :
    (Uninitialised w.storage ∧ w.log = []) ∨
      ∃ book, Represents w.storage book ∧ Sound book w.log ∧ X book w.outside w.log := by
  have initial : ∀ (_ : UInt64) book e, (bookModel answer drift).initial book →
      FewLocks [] → Sound book [] ∧ X book e [] := by
    intro _ book e isInitial _
    obtain ⟨admin, paused, selfHash, rfl⟩ := isInitial
    exact ⟨sound_empty, initially admin paused selfHash e⟩
  rcases history.invariant law.invariant fresh empty initial with
    still | ⟨book, represents, holds⟩
  · exact .inl still
  · obtain ⟨sound, x⟩ := holds few
    exact .inr ⟨book, represents, sound, x⟩

/-- Nothing but the order of the ids. -/
theorem sound_law : Law answer drift fun _ _ _ => True where
  drift := fun _ _ => trivial
  change := fun _ _ _ _ => trivial

/-- A law goes on holding from any state of a book whose ids are in order. -/
theorem Law.onward (law : Law answer drift X) (represents : Represents w.storage book)
    (sound : Sound book w.log) (x : X book w.outside w.log)
    (history : VestHistory answer drift now w more later w') (few : FewLocks w'.log) :
    ∃ book', Represents w'.storage book' ∧ Sound book' w'.log ∧
      X book' w'.outside w'.log := by
  obtain ⟨book', represents', holds⟩ :=
    history.represented law.invariant.traced represents (fun _ => ⟨sound, x⟩)
  obtain ⟨sound', x'⟩ := holds few
  exact ⟨book', represents', sound', x'⟩

end Law

/-! ## Concrete runs -/

namespace Sample

open Staking.Sample

/-- Tokens that only answer requests. -/
def answer (c : TokenCall) (e e' : Erc20Ledger) : Prop :=
  Erc20Ledger.answer package c e = .ok e'

def drift (e e' : Erc20Ledger) : Prop :=
  e' = e

/-- The contract as installed by the owner. -/
def opening : VestWorld Erc20Ledger where
  storage := .installed owner false
  outside := .endowed 1000000
  log := []

def setUp : UInt64 × AccountHash × Call := (0, owner, .init package)

def ready : VestWorld Erc20Ledger where
  storage := .initialised owner false package
  outside := .endowed 1000000
  log := []

section After

variable (calls : List (UInt64 × AccountHash × Call))

/-- The replay of the calls, each with its block time and its caller. -/
@[irreducible] def replayed : UInt64 → VestWorld Erc20Ledger →
    Option (List (Step Context Call Storage Erc20Ledger Event) × VestWorld Erc20Ledger) :=
  replaySteps (setting answer drift) (Erc20Ledger.answer package)
    (calls.map fun (blocktime, caller, entry) => ({ caller, blocktime }, entry))

def after (now : UInt64) (first : VestWorld Erc20Ledger)
    (success : (replayed calls now first).isSome) : VestWorld Erc20Ledger :=
  ((replayed calls now first).get success).2

variable {calls} {now : UInt64} {first : VestWorld Erc20Ledger}

theorem history_after (success : (replayed calls now first).isSome) :
    ∃ steps later, VestHistory answer drift now first steps later
      (after calls now first success) := by
  obtain ⟨result, replays⟩ := Option.isSome_iff_exists.mp success
  have same : after calls now first success = result.2 := by
    simp [after, replays]
  rw [same]
  unfold replayed at replays
  obtain ⟨later, history⟩ := History.replayed (fun _ _ _ answered => answered) .start replays
  exact ⟨_, later, history⟩

theorem runs_after {blocktime : UInt64} {caller : AccountHash} {entry : Call}
    (success : (replayed [(blocktime, caller, entry)] now first).isSome) :
    Runs (Quiet answer) (entry.program { caller, blocktime }) first ()
      (after [(blocktime, caller, entry)] now first success) := by
  obtain ⟨result, replays⟩ := Option.isSome_iff_exists.mp success
  have same : after [(blocktime, caller, entry)] now first success = result.2 := by
    simp [after, replays]
  rw [same]
  simp only [replayed, List.map_cons, List.map_nil, replaySteps, Option.map_some] at replays
  split at replays
  · obtain ⟨⟨⟨⟩, w⟩, evaluated, ⟨⟩⟩ := Option.bind_eq_some_iff.mp replays
    exact runs_of_exec (fun _ _ _ => quiet_of_quietly) evaluated
  · cases replays

end After

end Sample

end CasperContracts.Vesting
