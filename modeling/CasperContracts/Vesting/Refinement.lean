import CasperContracts.Host.Keys
import CasperContracts.Vesting.Named
import CasperContracts.Vesting.Reentrancy

/-!
# The vesting contract: the record stands for the named keys

`Stands` relates a record to a global state that shows the same contents under the
names the contract uses.  The names differ from one another, the printed hashes of
the accounts included, so that a write under one leaves the others alone.  Every
entry point over the named keys does what it does over the record
(`named_keys_refined`), among tokens that may call back at any time: a name that a call
inside another one has created is as new to the outer call as the record says.
-/

namespace CasperContracts.Vesting.Named

open CasperContracts.Basis Host GlobalState Prog

inductive NamedKey where
  | counter
  | admin
  | initialized
  | paused
  | index
  | selfContractHash
  | dicLockInfos
  | ids (account : AccountHash)
  deriving DecidableEq

def NamedKey.name : NamedKey → Name
  | .counter => contractName
  | .admin => keyNameAdmin
  | .initialized => keyNameInitialized
  | .paused => keyNamePaused
  | .index => keyNameIndex
  | .selfContractHash => keyNameSelfContractHash
  | .dicLockInfos => keyNameDicLockInfos
  | .ids account => account.toChars

/-- No two names are the same: the printed hash of an account is longer than every
constant. -/
theorem NamedKey.name_injective : Function.Injective NamedKey.name := by
  intro k k' same
  have printed : ∀ account : AccountHash, account.toChars.length = 64 := by
    intro account
    rw [AccountHash.toChars, length_encodeLower, account.value.property]
  have lengths := congrArg List.length same
  cases k with
  | ids account =>
      cases k' with
      | ids account' => exact congrArg _ (AccountHash.toChars_injective same)
      | _ => exact absurd ((printed account).symm.trans lengths) (by decide)
  | _ =>
      cases k' with
      | ids account' => exact absurd (lengths.trans (printed account')) (by decide)
      | _ => first | rfl | exact absurd same (by decide)

def slot (storage : Storage) : NamedKey → Option Slot
  | .counter => some (.cell (toValue (0 : Int32)))
  | .admin => some (.cell (toValue storage.admin))
  | .initialized => some (.cell (toValue storage.initialized))
  | .paused => some (.cell (toValue storage.paused))
  | .index => storage.index.map fun index => .cell (toValue index)
  | .selfContractHash => storage.selfContractHash.map fun hash => .cell (toValue hash)
  | .dicLockInfos => storage.lockInfos.map .dictionary
  | .ids account =>
      (storage.idArrays.lookup account.toChars).map fun ids => .cell (toValue ids)

theorem slot_admin (storage : Storage) (admin : AccountHash) :
    slot { storage with admin } =
      Function.update (slot storage) .admin (some (.cell (toValue admin))) := by
  funext k
  cases k <;> rfl

theorem slot_initialized (storage : Storage) (initialized : Bool) :
    slot { storage with initialized } =
      Function.update (slot storage) .initialized (some (.cell (toValue initialized))) := by
  funext k
  cases k <;> rfl

theorem slot_selfContractHash (storage : Storage) (hash : ContractPackageHash) :
    slot { storage with selfContractHash := some hash } =
      Function.update (slot storage) .selfContractHash (some (.cell (toValue hash))) := by
  funext k
  cases k <;> rfl

theorem slot_paused (storage : Storage) (paused : Bool) :
    slot { storage with paused } =
      Function.update (slot storage) .paused (some (.cell (toValue paused))) := by
  funext k
  cases k <;> rfl

theorem slot_index (storage : Storage) (index : UInt64) :
    slot { storage with index := some index } =
      Function.update (slot storage) .index (some (.cell (toValue index))) := by
  funext k
  cases k <;> rfl

theorem slot_lockInfos (storage : Storage) (items : Dictionary) :
    slot { storage with lockInfos := some items } =
      Function.update (slot storage) .dicLockInfos (some (.dictionary items)) := by
  funext k
  cases k <;> rfl

theorem slot_setIdArr (storage : Storage) (account : AccountHash) (ids : List UInt64) :
    slot (setIdArr account.toChars ids storage) =
      Function.update (slot storage) (.ids account) (some (.cell (toValue ids))) := by
  funext k
  cases k with
  | ids account' =>
      by_cases same : account' = account
      · subst same
        rw [Function.update_self, slot, setIdArr, Finmap.lookup_insert]
        rfl
      · have other : NamedKey.ids account' ≠ .ids account :=
          fun equal => same (NamedKey.ids.inj equal)
        have names : account'.toChars ≠ account.toChars :=
          fun equal => same (AccountHash.toChars_injective equal)
        rw [Function.update_of_ne other, slot, setIdArr, Finmap.lookup_insert_of_ne _ names]
        rfl
  | _ => rfl

theorem slot_of_lockInfos {storage : Storage} {items : Dictionary}
    (created : storage.lockInfos = some items) :
    slot storage .dicLockInfos = some (.dictionary items) := by
  rw [slot, created]
  rfl

theorem slot_ne_dictionary (storage : Storage) {k : NamedKey} (cell : k ≠ .dicLockInfos)
    (items : Dictionary) : slot storage k ≠ some (.dictionary items) := by
  cases k with
  | dicLockInfos => exact absurd rfl cell
  | _ => simp [slot]

/-- The record stands for the named keys. -/
abbrev Stands : Storage → GlobalState → Prop :=
  Shown NamedKey.name slot

/-- It stands for what a call sees that started with the names `known`. -/
abbrev Inside (known : NamedKeys) : Storage → Frame → Prop :=
  Seen NamedKey.name slot known

/-- And it stands for what such a call sees first. -/
abbrev Opened (known : NamedKeys) : Storage → Frame → Prop :=
  Starting NamedKey.name slot known

variable {known : NamedKeys} {storage storage' : Storage} {frame : Frame}
variable {context : Context} {seed : URef} {account : AccountHash}

/-! ## Reading -/

namespace Opened

theorem seen (opened : Opened known storage frame) : Inside known storage frame :=
  opened.inside

theorem isPaused (opened : Opened known storage frame) :
    Agree Reports Eq (.ok storage.paused) (Utils.getKey Bool keyNamePaused frame) :=
  opened.inside.agree_getKey_some (k := .paused) (opened.whole.upToDate _) rfl

theorem initialized (opened : Opened known storage frame) :
    Agree Reports Eq (.ok storage.initialized)
      (Utils.getKey Bool keyNameInitialized frame) :=
  opened.inside.agree_getKey_some (k := .initialized) (opened.whole.upToDate _) rfl

theorem admin (opened : Opened known storage frame) :
    Agree Reports Eq (.ok storage.admin) (Utils.getKey AccountHash keyNameAdmin frame) :=
  opened.inside.agree_getKey_some (k := .admin) (opened.whole.upToDate _) rfl

theorem selfContractHash (opened : Opened known storage frame) :
    Agree Reports Eq (Vesting.selfContractHash storage) (Named.selfContractHash frame) := by
  apply (opened.inside.agree_getKey (k := .selfContractHash) (opened.whole.upToDate _) rfl).mono
  intro hash hash' found
  exact found.1.symm

theorem index (opened : Opened known storage frame) :
    Agree Reports Eq (Staking.getKey storage.index)
      (Utils.getKey UInt64 keyNameIndex frame) := by
  apply (opened.inside.agree_getKey (k := .index) (opened.whole.upToDate _) rfl).mono
  intro index index' found
  exact found.1.symm

theorem makeLockKeyId (opened : Opened known storage frame) (lockId : UInt64) :
    Agree Reports Eq (Vesting.makeLockKeyId lockId storage)
      (Named.makeLockKeyId lockId frame) := by
  apply opened.selfContractHash.bind
  intro cHash cHash' same
  subst same
  exact .ok rfl

theorem isIdValid (opened : Opened known storage frame) (input : UInt64) :
    Agree Reports Eq (Vesting.isIdValid input storage) (Named.isIdValid input frame) := by
  apply opened.index.bind
  intro currentIndex currentIndex' same
  subst same
  by_cases below : currentIndex < input
  · rw [if_pos below, if_pos below]
    exact .error rfl
  · rw [if_neg below, if_neg below]
    exact .ok rfl

/-- The seed of the dictionary is among the names the call knows. -/
theorem seedUref (opened : Opened known storage frame) :
    Agree Reports (fun items seed => known.lookup keyNameDicLockInfos = some (.uref seed) ∧
        ∀ itemKey, frame.dictionaryGet seed itemKey = items.lookup itemKey)
      (unwrapOrRevert storage.lockInfos) (Named.seedUref frame) := by
  apply (opened.inside.agree_seedURef (k := .dicLockInfos) .none (opened.whole.upToDate _)
    rfl).mono
  intro items seed found
  obtain ⟨-, bound, holds⟩ := found
  rw [opened.fresh] at bound
  exact ⟨bound, holds⟩

theorem getLock (opened : Opened known storage frame) (lockId : UInt64) :
    Agree Reports (fun found found' => ∃ seed, found' = (found.1, seed, found.2) ∧
        known.lookup keyNameDicLockInfos = some (.uref seed))
      (Vesting.getLock context lockId storage) (Named.getLock context lockId frame) := by
  apply (opened.isIdValid lockId).bind
  intro _ _ _
  apply opened.seedUref.bind
  intro items seed found
  obtain ⟨bound, holds⟩ := found
  apply (opened.makeLockKeyId lockId).bind
  intro dictionaryItemKey _ same
  subst same
  rw [holds]
  apply (agree_orFault .none (items.lookup dictionaryItemKey)).bind
  intro lockBytes _ same
  subst same
  apply (agree_orFailure (isValidEntry lockBytes)).bind
  intro _ _ _
  apply (agree_orFailure (callerIsRecipient context lockBytes)).bind
  intro _ _ _
  apply (agree_orFailure (VestInfo.unpack lockBytes)).bind
  intro lock _ same
  subst same
  exact .ok ⟨seed, rfl, bound⟩

end Opened

/-! ## Writing -/

theorem pushId_eq_enlist (userKey : List Char) (index : UInt64) (storage : Storage) :
    Vesting.pushId userKey index storage =
      Vesting.enlist (hasKey userKey storage) userKey index storage := by
  unfold Vesting.enlist hasKey
  cases found : storage.idArrays.lookup userKey with
  | none =>
      rw [Vesting.pushId, found]
      rfl
  | some idArr => rfl

namespace Inside

private theorem setKey {α : Type} [CLTyped α] (inside : Inside known storage frame)
    (k : NamedKey) (value : α)
    (updated : slot storage' = Function.update (slot storage) k (some (.cell (toValue value))))
    (cell : k ≠ .dicLockInfos) :
    ∃ frame', Utils.setKey k.name value frame = .ok frame' ∧ Inside known storage' frame' ∧
      (frame.Whole → frame'.Whole) := by
  obtain ⟨frame', success, sees, whole⟩ :=
    Sees.setKey NamedKey.name_injective inside value (slot_ne_dictionary storage cell)
  exact ⟨frame', success, (by rw [Inside, Seen, updated]; exact sees), whole⟩

private theorem setIdArr (inside : Inside known storage frame) (account : AccountHash)
    (ids : List UInt64) :
    ∃ frame', Utils.setKey account.toChars ids frame = .ok frame' ∧
      Inside known (Vesting.setIdArr account.toChars ids storage) frame' ∧
      (frame.Whole → frame'.Whole) :=
  inside.setKey (.ids account) ids (slot_setIdArr storage account ids) (by simp)

private theorem setIndex (inside : Inside known storage frame) (index : UInt64) :
    ∃ frame', Utils.setKey keyNameIndex index frame = .ok frame' ∧
      Inside known { storage with index := some index } frame' ∧
      (frame.Whole → frame'.Whole) :=
  inside.setKey .index index (slot_index storage index) (by simp)

private theorem newDictionary (inside : Inside known storage frame) (whole : frame.Whole)
    (absent : storage.lockInfos = none) :
    ∃ frame', frame.newDictionary keyNameDicLockInfos = .ok frame' ∧
      Inside known { storage with lockInfos := some ∅ } frame' := by
  have free : slot storage .dicLockInfos = none := by
    rw [slot, absent]
    rfl
  obtain ⟨frame', made, sees, -⟩ :=
    inside.newDictionary_none NamedKey.name_injective whole free
  exact ⟨frame', made, (by rw [Inside, Seen, slot_lockInfos]; exact sees)⟩

theorem dictionaryPut (inside : Inside known storage frame)
    (bound : known.lookup keyNameDicLockInfos = some (.uref seed)) (itemKey : DictKey)
    (value : List UInt8) :
    ∃ storage', Vesting.dictionaryPut itemKey value storage = .ok storage' ∧
      Inside known storage' (frame.dictionaryPut seed itemKey value) := by
  have own := inside.started _ _ bound
  have present : slot storage .dicLockInfos ≠ none :=
    inside.present (k := NamedKey.dicLockInfos) (by
      rw [NamedKey.name, own]
      simp)
  obtain ⟨items, stored⟩ : ∃ items, storage.lockInfos = some items := by
    cases found : storage.lockInfos with
    | some items => exact ⟨items, rfl⟩
    | none =>
        rw [slot, found] at present
        exact absurd rfl present
  refine ⟨{ storage with lockInfos := some (Finmap.insert itemKey value items) }, ?_, ?_⟩
  · rw [Vesting.dictionaryPut, stored]
    rfl
  · rw [Inside, Seen, slot_lockInfos]
    exact Sees.dictionaryPut (k := NamedKey.dicLockInfos) inside (slot_of_lockInfos stored) own
      itemKey value

private theorem exists_idArr (inside : Inside known storage frame)
    (knows : frame.hasKey account.toChars = true) :
    ∃ idArr, storage.idArrays.lookup account.toChars = some idArr ∧
      Utils.getKey (List UInt64) account.toChars frame = .ok idArr := by
  have own : frame.own.lookup (NamedKey.ids account).name ≠ none :=
    Option.isSome_iff_ne_none.mp knows
  have present : slot storage (.ids account) ≠ none := inside.present own
  cases found : storage.idArrays.lookup account.toChars with
  | none =>
      rw [slot, found] at present
      exact absurd rfl present
  | some idArr =>
      refine ⟨idArr, rfl, inside.getKey_some (k := .ids account) (inside.upToDate own) ?_⟩
      rw [slot, found]
      rfl

/-- A call that knows all names knows an account when the record has its list. -/
theorem hasKey_eq (inside : Inside known storage frame) (whole : frame.Whole) :
    frame.hasKey account.toChars = Vesting.hasKey account.toChars storage := by
  have visible : frame.hasKey account.toChars = (slot storage (.ids account)).isSome :=
    Sees.hasKey (k := NamedKey.ids account) inside (whole.upToDate _)
  rw [visible, slot, Vesting.hasKey, Option.isSome_map]

theorem enlist (inside : Inside known storage frame) (account : AccountHash)
    (index : UInt64) :
    ∃ frame', Named.pushId account.toChars index frame = .ok frame' ∧
      Inside known (Vesting.enlist (frame.hasKey account.toChars) account.toChars index storage)
        frame' := by
  cases knows : frame.hasKey account.toChars with
  | false =>
      obtain ⟨frame', success, after, -⟩ := inside.setIdArr account [index]
      refine ⟨frame', ?_, after⟩
      rw [Named.pushId, knows]
      exact success
  | true =>
      obtain ⟨idArr, found, read⟩ := inside.exists_idArr knows
      obtain ⟨frame', success, after, -⟩ := inside.setIdArr account (idArr ++ [index])
      refine ⟨frame', ?_, ?_⟩
      · rw [Named.pushId, knows]
        simp only [read]
        exact success
      · rw [Vesting.enlist, if_pos rfl, Vesting.pushId, found]
        exact after

theorem dropKnown (inside : Inside known storage frame) (account : AccountHash)
    (lockId : UInt64) :
    Agree Reports (fun storage' frame' =>
        Inside known storage' frame' ∧ (frame.Whole → frame'.Whole))
      (if frame.hasKey account.toChars then Vesting.dropId account.toChars lockId storage
        else .error (.revert .missingKey))
      (Named.dropId account.toChars lockId frame) := by
  cases knows : frame.hasKey account.toChars with
  | false =>
      have missing : frame.own.lookup account.toChars = none :=
        Option.isNone_iff_eq_none.mp (Option.isSome_eq_false_iff.mp knows)
      rw [Named.dropId, Utils.getKey, missing]
      exact .error rfl
  | true =>
      obtain ⟨idArr, found, read⟩ := inside.exists_idArr knows
      rw [if_pos rfl, Vesting.dropId, found, Named.dropId, read]
      change Agree Reports _ (orPanic (idArr.idxOf? lockId) >>= _)
        (orFault (.failure .panic) (idArr.idxOf? lockId) >>= _)
      cases position : idArr.idxOf? lockId with
      | none => exact .error rfl
      | some idx =>
          obtain ⟨frame', success, after⟩ := inside.setIdArr account (swapRemove idArr idx)
          change Agree Reports _ (.ok _)
            (Utils.setKey account.toChars (swapRemove idArr idx) frame)
          rw [success]
          exact .ok after

/-- In a call that knows all names this is `dropId`. -/
theorem dropId (inside : Inside known storage frame) (whole : frame.Whole) (lockId : UInt64) :
    Agree Reports (fun storage' frame' => Inside known storage' frame' ∧ frame'.Whole)
      (Vesting.dropId account.toChars lockId storage)
      (Named.dropId account.toChars lockId frame) := by
  have dropped := (inside.dropKnown account lockId).mono
    fun _ _ after => And.imp_right (fun onward => onward whole) after
  rw [inside.hasKey_eq whole] at dropped
  cases isKnown : Vesting.hasKey account.toChars storage with
  | true =>
      rw [isKnown, if_pos rfl] at dropped
      exact dropped
  | false =>
      have absent : storage.idArrays.lookup account.toChars = none :=
        Option.isNone_iff_eq_none.mp (Option.isSome_eq_false_iff.mp isKnown)
      rw [isKnown, if_neg Bool.false_ne_true] at dropped
      rw [Vesting.dropId, absent]
      exact dropped

theorem updateStorage (inside : Inside known storage frame)
    (bound : known.lookup keyNameDicLockInfos = some (.uref seed)) (itemKey : DictKey)
    (res : List UInt8) (index : UInt64) (account : AccountHash) :
    Agree Reports (Inside known)
      (Vesting.updateStorage (frame.hasKey account.toChars) itemKey res index account.toChars
        storage)
      (Named.updateStorage seed itemKey res index account.toChars frame) := by
  obtain ⟨storage', written, insideThen⟩ := inside.dictionaryPut bound itemKey res
  obtain ⟨frame', pushed, after⟩ := insideThen.enlist account index
  rw [Vesting.updateStorage, Named.updateStorage, written, pushed]
  exact .ok after

/-- `update_storage_transfer_lock` makes no request, so that its call knows all names. -/
theorem updateStorageTransferLock (inside : Inside known storage frame)
    (whole : frame.Whole) (bound : known.lookup keyNameDicLockInfos = some (.uref seed))
    (itemKey : DictKey) (index : UInt64) (oldOwner newOwner : AccountHash)
    (newLock : List UInt8) :
    Agree Reports (Inside known)
      (Vesting.updateStorageTransferLock itemKey index oldOwner.toChars newOwner.toChars
        newLock storage)
      (Named.updateStorageTransferLock seed itemKey index oldOwner.toChars newOwner.toChars
        newLock frame) := by
  apply (inside.dropId whole index).bind
  intro storage₁ frame₁ dropped
  obtain ⟨inside₁, whole₁⟩ := dropped
  obtain ⟨storage₂, written, inside₂⟩ := inside₁.dictionaryPut bound itemKey newLock
  obtain ⟨frame₃, pushed, after⟩ := inside₂.enlist newOwner index
  rw [inside₂.hasKey_eq whole₁, ← pushId_eq_enlist] at after
  rw [written, pushed]
  exact .ok after

theorem storeClaimed (inside : Inside known storage frame)
    (bound : known.lookup keyNameDicLockInfos = some (.uref seed)) (lockId : UInt64)
    (lock : VestInfo) (itemKey : DictKey) :
    Agree Reports (Inside known)
      (Vesting.storeClaimed context (frame.hasKey context.caller.toChars) lockId lock itemKey
        storage)
      (Named.storeClaimed context lockId lock seed itemKey frame) := by
  rw [Vesting.storeClaimed, Named.storeClaimed]
  by_cases allClaimed :
      lock.schedules.length = lock.schedules.countP fun s => s.amount.isZero
  · obtain ⟨storage', written, insideThen⟩ :=
      inside.dictionaryPut bound itemKey VestInfo.clearEntry
    rw [if_pos allClaimed, if_pos allClaimed, written]
    exact (insideThen.dropKnown context.caller lockId).mono fun _ _ after => after.1
  · obtain ⟨storage', written, insideThen⟩ := inside.dictionaryPut bound itemKey lock.pack
    rw [if_neg allClaimed, if_neg allClaimed, written]
    exact .ok insideThen

end Inside

/-! ## The entry points -/

section Entries

/-- The entry points side by side in one call: they issue the same requests, rely on names
to stay while they wait, and see the same in the end. -/
abbrev SideBySide (known : NamedKeys) (program : Vesting.Contract Unit) (storage : Storage)
    (program' : Contract Unit) (frame : Frame) : Prop :=
  Simulates (Inside known) (KeepsOwn NamesStay) Reports
    (fun _ storage' _ frame' => Inside known storage' frame') program storage program' frame

private theorem simulates_revertIf_bind {condition : Prop} [Decidable condition]
    {error : ApiError} {rest : Unit → Vesting.Contract Unit} {rest' : Unit → Contract Unit}
    (onward : ¬ condition → SideBySide known (rest ()) storage (rest' ()) frame) :
    SideBySide known (Vesting.revertIf condition error >>= rest) storage
      (revertIf condition error >>= rest') frame := by
  by_cases holds : condition
  · rw [Vesting.revertIf, revertIf, if_pos holds, if_pos holds]
    exact .fail rfl
  · rw [Vesting.revertIf, revertIf, if_neg holds, if_neg holds]
    exact onward holds

private theorem simulates_unpaused (opened : Opened known storage frame)
    {rest : Unit → Vesting.Contract Unit} {rest' : Unit → Contract Unit}
    (onward : SideBySide known (rest ()) storage (rest' ()) frame) :
    SideBySide known
      (Vesting.isPaused >>= fun paused => Vesting.revertIf paused (.user 14) >>= rest) storage
      (isPaused >>= fun paused => revertIf paused (.user 14) >>= rest') frame := by
  apply Simulates.reads_bind
  · exact opened.isPaused
  intro paused _ same
  subst same
  exact simulates_revertIf_bind fun _ => onward

/-- A request leaves a call the names it knew. -/
private theorem hasKey_of_kept {frame' : Frame} {name : Name}
    (kept : KeepsOwn NamesStay storage frame storage' frame') :
    frame'.hasKey name = frame.hasKey name := by
  rw [Frame.hasKey, kept.1]
  rfl

private theorem simulates_lock (opened : Opened known storage frame) (tokh : ContractHash)
    (cliffAmount : U256) (cliffDurtime timeBetweenLocks : UInt64) (numberOfLocks : UInt32) :
    SideBySide known
      (Vesting.lock context tokh cliffAmount cliffDurtime timeBetweenLocks numberOfLocks)
      storage (lock context tokh cliffAmount cliffDurtime timeBetweenLocks numberOfLocks)
      frame := by
  apply Simulates.readsLeft_bind rfl
  apply simulates_unpaused opened
  apply Simulates.reads_bind
  · exact opened.seedUref
  intro items seed found
  obtain ⟨bound, -⟩ := found
  apply Simulates.ofExcept_bind
  · exact agree_orFailure _
  intro firstUnlock _ same
  subst same
  apply simulates_revertIf_bind
  intro _
  apply Simulates.ofExcept_bind
  · exact agree_orFailure _
  intro schedules _ same
  subst same
  apply Simulates.reads_bind
  · exact opened.index
  intro currentIndex _ same
  subst same
  apply Simulates.reads_bind
  · exact opened.makeLockKeyId currentIndex
  intro dictionaryItemKey _ same
  subst same
  apply Simulates.reads_bind
  · exact opened.selfContractHash
  intro spender _ same
  subst same
  apply Simulates.request_bind opened.seen
  intro storage₁ frame₁ inside₁ kept
  have knows : Vesting.hasKey context.caller.toChars storage =
      frame₁.hasKey context.caller.toChars := by
    rw [hasKey_of_kept kept, opened.seen.hasKey_eq opened.whole]
  rw [knows]
  apply Simulates.updates_bind
  · exact inside₁.updateStorage bound _ _ _ _
  intro storage₂ frame₂ inside₂
  obtain ⟨frame₃, success, inside₃, -⟩ := inside₂.setIndex (currentIndex + 1)
  have next : Agree Reports (Inside known)
      (.ok { storage₂ with index := some (currentIndex + 1) })
      (Utils.setKey keyNameIndex (currentIndex + 1) frame₂) := by
    rw [success]
    exact .ok inside₃
  apply Simulates.updates_bind
  · exact next
  intro storage₄ frame₄ inside₄
  exact Simulates.record inside₄

private theorem simulates_extendLock (opened : Opened known storage frame) (lockId : UInt64)
    (index : UInt32) (newRelease : UInt64) :
    SideBySide known (Vesting.extendLock context lockId index newRelease) storage
      (extendLock context lockId index newRelease) frame := by
  apply simulates_unpaused opened
  apply Simulates.reads_bind
  · exact opened.getLock lockId
  intro found _ agree
  obtain ⟨seed, rfl, bound⟩ := agree
  obtain ⟨lock, dictionaryItemKey⟩ := found
  dsimp only
  cases here : lock.schedules[index.toNat]? with
  | none => exact .fail rfl
  | some schedule =>
      apply simulates_revertIf_bind
      intro _
      apply Simulates.updates
      obtain ⟨storage', written, after⟩ := opened.seen.dictionaryPut bound dictionaryItemKey
        { lock with
          schedules :=
            lock.schedules.set index.toNat { schedule with release := newRelease } }.pack
      rw [written]
      exact .ok after

private theorem simulates_transferLock (opened : Opened known storage frame)
    (lockId : UInt64) (newOwner : AccountHash) :
    SideBySide known (Vesting.transferLock context lockId newOwner) storage
      (transferLock context lockId newOwner) frame := by
  apply simulates_unpaused opened
  apply Simulates.reads_bind
  · exact opened.getLock lockId
  intro found _ agree
  obtain ⟨seed, rfl, bound⟩ := agree
  obtain ⟨lock, dictionaryItemKey⟩ := found
  apply Simulates.updates
  exact opened.seen.updateStorageTransferLock opened.whole bound dictionaryItemKey lock.id
    context.caller newOwner { lock with recipient := newOwner }.pack

private theorem simulates_claim (opened : Opened known storage frame) (lockId : UInt64) :
    SideBySide known (Vesting.claim context lockId) storage (claim context lockId) frame := by
  apply Simulates.readsLeft_bind rfl
  apply simulates_unpaused opened
  apply Simulates.reads_bind
  · exact opened.getLock lockId
  intro found _ agree
  obtain ⟨seed, rfl, bound⟩ := agree
  obtain ⟨lock, dictionaryItemKey⟩ := found
  apply Simulates.ofExcept_bind
  · exact agree_orFailure _
  intro due _ same
  subst same
  obtain ⟨amountToTransfer, schedules⟩ := due
  apply simulates_revertIf_bind
  intro _
  apply Simulates.request_bind opened.seen
  intro storage₁ frame₁ inside₁ kept
  have knows : Vesting.hasKey context.caller.toChars storage =
      frame₁.hasKey context.caller.toChars := by
    rw [hasKey_of_kept kept, opened.seen.hasKey_eq opened.whole]
  rw [knows]
  apply Simulates.updates_bind
  · exact inside₁.storeClaimed bound lockId { lock with schedules } dictionaryItemKey
  intro storage₂ frame₂ inside₂
  exact Simulates.record inside₂

private theorem simulates_init (opened : Opened known storage frame)
    (contHash : ContractPackageHash) :
    SideBySide known (Vesting.init contHash) storage (init contHash) frame := by
  apply Simulates.reads_bind
  · exact opened.initialized
  intro isInitialized _ same
  subst same
  apply simulates_revertIf_bind
  intro _
  apply Simulates.updates
  cases created : storage.lockInfos with
  | some items =>
      have refused : frame.newDictionary keyNameDicLockInfos =
          .error (reverts .invalidArgument) :=
        opened.seen.newDictionary_some (k := NamedKey.dicLockInfos) opened.whole
          (slot_of_lockInfos created)
      rw [refused]
      exact .error rfl
  | none =>
      obtain ⟨frame₁, made, inside₁⟩ := opened.seen.newDictionary opened.whole created
      obtain ⟨frame₂, named, inside₂, -⟩ := inside₁.setKey .selfContractHash contHash
        (slot_selfContractHash _ contHash) (by simp)
      obtain ⟨frame₃, counted, inside₃, -⟩ := inside₂.setIndex 0
      obtain ⟨frame₄, marked, inside₄, -⟩ := inside₃.setKey .initialized true
        (slot_initialized _ true) (by simp)
      rw [made]
      change Agree Reports _ _
        (Utils.setKey NamedKey.selfContractHash.name contHash frame₁ >>= _)
      rw [named]
      change Agree Reports _ _ (Utils.setKey keyNameIndex (0 : UInt64) frame₂ >>= _)
      rw [counted]
      change Agree Reports _ _ (Utils.setKey NamedKey.initialized.name true frame₃)
      rw [marked]
      exact .ok inside₄

private theorem simulates_setAdmin (opened : Opened known storage frame)
    (account : AccountHash) :
    SideBySide known (Vesting.setAdmin context account) storage (setAdmin context account)
      frame := by
  apply Simulates.reads_bind
  · exact opened.admin
  intro admin _ same
  subst same
  apply simulates_revertIf_bind
  intro _
  apply Simulates.updates
  obtain ⟨frame', success, after, -⟩ := opened.seen.setKey .admin account
    (slot_admin storage account) (by simp)
  rw [show Utils.setKey keyNameAdmin account frame = .ok frame' from success]
  exact .ok after

private theorem simulates_setPauseContract (opened : Opened known storage frame) :
    SideBySide known (Vesting.setPauseContract context) storage (setPauseContract context)
      frame := by
  apply Simulates.reads_bind
  · exact opened.admin
  intro admin _ same
  subst same
  apply simulates_revertIf_bind
  intro _
  apply Simulates.reads_bind
  · exact opened.isPaused
  intro currentState _ same
  subst same
  apply Simulates.updates
  obtain ⟨frame', success, after, -⟩ := opened.seen.setKey .paused (!currentState)
    (slot_paused storage (!currentState)) (by simp)
  rw [show Utils.setKey keyNamePaused (!currentState) frame = .ok frame' from success]
  exact .ok after

theorem simulates_body (opened : Opened known storage frame) (entry : Call) :
    SideBySide known (entry.program context) storage (body context entry) frame := by
  cases entry with
  | init contHash => exact simulates_init opened contHash
  | lock tokh cliffAmount cliffDurtime timeBetweenLocks numberOfLocks =>
      exact simulates_lock opened tokh cliffAmount cliffDurtime timeBetweenLocks numberOfLocks
  | extendLock lockId index newRelease =>
      exact simulates_extendLock opened lockId index newRelease
  | transferLock lockId newOwner => exact simulates_transferLock opened lockId newOwner
  | claim lockId => exact simulates_claim opened lockId
  | setAdmin account => exact simulates_setAdmin opened account
  | setPauseContract => exact simulates_setPauseContract opened

theorem simulatesAll (context : Context) :
    SimulatesAll Stands NamesStay Reports (Call.program context) (program context) := by
  intro entry storage state stands
  exact simulates_framed stands fun _ opened => simulates_body opened entry

end Entries

/-! ## From the installation on -/

theorem stands_call (installer : Context) :
    Stands (.installed installer.caller false) (call installer) := by
  have shows₁ := shows_empty.putNew NamedKey.name_injective (k := NamedKey.counter)
    (toValue (0 : Int32))
  have shows₂ := shows₁.putNew NamedKey.name_injective (k := NamedKey.admin)
    (toValue installer.caller)
  have shows₃ := shows₂.putNew NamedKey.name_injective (k := NamedKey.initialized)
    (toValue false)
  have shows₄ := shows₃.putNew NamedKey.name_injective (k := NamedKey.paused)
    (toValue false)
  have named : (call installer).Shows NamedKey.name _ := shows₄
  change GlobalState.Shows _ _ _
  convert named using 1
  funext k
  cases k with
  | ids account =>
      rw [slot, Storage.installed, Finmap.lookup_empty]
      rfl
  | _ => rfl

section Deploys

variable {E : Type} {answer : TokenCall → E → E → Prop} {drift : E → E → Prop}
variable {hostile : TokenCall → Prop} {installer : Context} {outside : E} {start : UInt64}

/-- Tokens that may call back into the contract over its named keys. -/
abbrev NamedTokens (answer : TokenCall → E → E → Prop) (drift : E → E → Prop)
    (hostile : TokenCall → Prop) (context : Context) (depth : Nat) (entry : Call) :
    TokenCall → World GlobalState E Event → World GlobalState E Event → Prop :=
  Embedded (program context) answer drift hostile (fun _ _ _ => True) depth [entry]

abbrev RecordTokens (answer : TokenCall → E → E → Prop) (drift : E → E → Prop)
    (hostile : TokenCall → Prop) (context : Context) (depth : Nat) (entry : Call) :
    TokenCall → VestWorld E → VestWorld E → Prop :=
  Embedded (Call.program context) answer drift hostile (fun _ _ _ => True) depth [entry]

/-- The worlds reached from an installation, over the named keys. -/
abbrev NamedReached (answer : TokenCall → E → E → Prop) (drift : E → E → Prop)
    (hostile : TokenCall → Prop) (installer : Context) (outside : E) (start now : UInt64)
    (v : World GlobalState E Event) : Prop :=
  Deploys program Context.blocktime answer drift hostile (fun _ _ _ _ => True) start
    ⟨call installer, outside, []⟩ now v

abbrev RecordReached (answer : TokenCall → E → E → Prop) (drift : E → E → Prop)
    (hostile : TokenCall → Prop) (installer : Context) (outside : E) (start now : UInt64)
    (w : VestWorld E) : Prop :=
  Deploys Call.program Context.blocktime answer drift hostile (fun _ _ _ _ => True) start
    ⟨.installed installer.caller false, outside, []⟩ now w

/-- Over its named keys the contract does what it does over the record, whoever calls back
into it: each reaches what the other reaches, with the same events and the same outside
world, and a call fails on both sides in the same way or on none.  So a constant name is
never taken for an account, the seed a call has read stays good, and no call ends on a key
of the wrong kind or on a missing or misread value. -/
theorem named_keys_refined :
    (∀ now v, NamedReached answer drift hostile installer outside start now v →
      ∃ w, RecordReached answer drift hostile installer outside start now w ∧
        Alike Stands w v) ∧
    (∀ now w, RecordReached answer drift hostile installer outside start now w →
      ∃ v, NamedReached answer drift hostile installer outside start now v ∧
        Alike Stands w v) ∧
    ∀ (w : VestWorld E) v, Alike Stands w v →
      ∀ (context : Context) (entry : Call) (depth : Nat) (fault : Fault),
        Fails (NamedTokens answer drift hostile context depth entry)
            (program context entry) v fault ↔
          ∃ failure, fault = .failure failure ∧
            Fails (RecordTokens answer drift hostile context depth entry)
              (entry.program context) w failure := by
  have alike : Alike Stands (⟨.installed installer.caller false, outside, []⟩ : VestWorld E)
      ⟨call installer, outside, []⟩ := ⟨stands_call installer, rfl, rfl⟩
  exact Deploys.refined rely_namesStay simulatesAll Reports.functional alike

end Deploys

section Sample

open Staking.Sample Vesting.Sample

/-- The first lock of an account, inside of which its token makes another one for the same
account: the outer call does not know the name that the inner one has created, and starts
the list anew. -/
example :
    ((replayDeploys program Context.blocktime (fun _ _ _ _ => True)
      (fun c e => orFailure (Erc20Ledger.answer package c e))
      (reenters (.lock tokenA (units 4) 90 0 1))
      [(⟨owner, 0⟩, .init package), (⟨staker 1, 10⟩, .lock tokenB (units 10) 90 0 1)] 0
      ⟨call ⟨owner, 0⟩, .endowed 1000000, []⟩).map fun w =>
        Utils.getKey (List UInt64) (staker 1).toChars ⟨w.storage.namedKeys, w.storage⟩) =
      some (.ok [0]) := by
  decide +kernel

end Sample

end CasperContracts.Vesting.Named
