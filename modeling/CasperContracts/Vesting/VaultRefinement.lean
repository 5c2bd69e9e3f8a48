import CasperContracts.Vesting.Ids
import CasperContracts.Vesting.Vault

/-!
# The contract keeps a vault

The stored bytes and lists stand for a vault, and every entry point meets the step of
the vault: it fails where the step fails, with the same error, and otherwise asks the
tokens for the same and leaves a storage that stands for the next vault.
-/

namespace CasperContracts.Vesting

open CasperContracts.Basis Host Prog
open Staking (getKey newDictionary)

/-! ## Storage and vault -/

def Registry.entry (registry : Registry) (lockId : UInt64) : Option (Option VestInfo) :=
  registry.grants[lockId.toNat]?.map (Option.map fun grant => grant.info lockId)

structure Registry.KeptIn (registry : Registry) (book : Book) : Prop where
  self : book.selfHash = registry.self
  count : book.index.toNat = registry.grants.length
  entries : ∀ lockId, book.entries.lookup lockId = registry.entry lockId

/-- The storage and the log of the contract stand for a vault. -/
inductive Realises : Storage → Vault → List Event → Prop where
  | closed {admin : AccountHash} {paused : Bool} :
      Realises (.installed admin paused) (.installed admin paused) []
  | opened {storage : Storage} {book : Book} {registry : Registry} {log : List Event}
      (represents : Represents storage book) (sound : Sound book log) (listed : Listed book)
      (kept : registry.KeptIn book) :
      Realises storage ⟨book.admin, book.paused, some registry⟩ log

/-- The contract does what the step of the vault says. -/
abbrev Follows (program : Contract Unit) (storage : Storage) (log : List Event)
    (step : Except Failure (Effect TokenCall Event Vault)) : Prop :=
  Meets Realises FewLocks program storage log step

section Entries

variable {registry : Registry} {book book' : Book} {lockId : UInt64} {grant : Grant}

theorem Registry.entry_add (new : lockId.toNat = registry.grants.length) (other : UInt64) :
    Registry.entry { registry with grants := registry.grants ++ [some grant] } other =
      if other = lockId then some (some (grant.info lockId)) else registry.entry other := by
  unfold Registry.entry
  by_cases same : other = lockId
  · subst same
    simp [new]
  · have different : other.toNat ≠ registry.grants.length :=
      fun equal => same (UInt64.toNat_inj.mp (equal.trans new.symm))
    rw [if_neg same, List.getElem?_append]
    split
    · rfl
    · rename_i beyond
      rw [List.getElem?_eq_none (by simp; omega), List.getElem?_eq_none (by omega)]

theorem Registry.entry_put (inside : lockId.toNat < registry.grants.length)
    (entry : Option Grant) (other : UInt64) :
    Registry.entry { registry with grants := registry.grants.set lockId.toNat entry } other =
      if other = lockId then some (entry.map fun grant => grant.info lockId)
      else registry.entry other := by
  unfold Registry.entry
  by_cases same : other = lockId
  · subst same
    simp [inside]
  · have different : lockId.toNat ≠ other.toNat :=
      fun equal => same (UInt64.toNat_inj.mp equal.symm)
    rw [if_neg same, List.getElem?_set_ne different]

theorem Registry.KeptIn.put (kept : registry.KeptIn book)
    (inside : lockId.toNat < registry.grants.length) {entry : Option Grant}
    (self : book'.selfHash = book.selfHash) (index : book'.index = book.index)
    (entries : ∀ other, book'.entries.lookup other =
      if other = lockId then some (entry.map fun grant => grant.info lockId)
      else book.entries.lookup other) :
    Registry.KeptIn { registry with grants := registry.grants.set lockId.toNat entry } book' where
  self := self.trans kept.self
  count := by
    rw [index, kept.count]
    exact List.length_set.symm
  entries := by
    intro other
    rw [entries, Registry.entry_put inside, kept.entries]

end Entries

/-! ## Shared steps -/

section Steps

variable {storage : Storage} {vault : Vault} {log : List Event}

theorem follows_refuse {condition condition' : Prop} [Decidable condition]
    [Decidable condition'] {error : ApiError} {f : Unit → Contract Unit}
    {g : Unit → Except Failure (Effect TokenCall Event Vault)} (same : condition ↔ condition')
    (onward : ¬ condition' → Follows (f ()) storage log (g ())) :
    Follows (revertIf condition error >>= f) storage log
      (refuse condition' error >>= g) :=
  Meets.guard_bind same onward

theorem follows_knowsCaller {f : Bool → Contract Unit}
    {step : Except Failure (Effect TokenCall Event Vault)}
    (onward : Follows (f (hasKey context.caller.toChars storage)) storage log step) :
    Follows (knowsCaller context >>= f) storage log step :=
  Meets.reads_bind_ok rfl onward

theorem follows_unpaused (realises : Realises storage vault log) {f : Unit → Contract Unit}
    {g : Unit → Except Failure (Effect TokenCall Event Vault)}
    (onward : vault.paused = false → Follows (f ()) storage log (g ())) :
    Follows (isPaused >>= fun paused => revertIf paused (.user 14) >>= f) storage log
      (refuse vault.paused (.user 14) >>= g) := by
  have same : storage.paused = vault.paused := by
    cases realises with
    | closed => rfl
    | opened represents _ _ _ => exact represents.paused
  apply Meets.reads_bind_ok rfl
  rw [same]
  apply follows_refuse Iff.rfl
  intro unpaused
  exact onward (Bool.eq_false_iff.mpr unpaused)

end Steps

/-! ## Finding a grant -/

section Find

variable {storage : Storage} {book : Book} {registry : Registry} {context : Context}
  {lockId : UInt64} {log : List Event}

theorem callerIsRecipient_eq (info : VestInfo) :
    callerIsRecipient context info.pack =
      if info.recipient ≠ context.caller then .error (.revert .invalidPurse) else .ok () := by
  split
  · rename_i different
    cases checked : callerIsRecipient context info.pack with
    | ok done => exact absurd (Represents.callerIsRecipient_eq_ok.mp checked) different
    | error failure =>
        simp only [callerIsRecipient, VestInfo.unpackRecipient_pack] at checked
        change (if _ then _ else _) = _ at checked
        split at checked
        · exact checked.symm
        · cases checked
  · rename_i same
    exact Represents.callerIsRecipient_eq_ok.mpr (not_not.mp same)

theorem getLock_eq (represents : Represents storage book) (kept : registry.KeptIn book) :
    getLock context lockId storage =
      (registry.grantOf context lockId).map fun grant =>
        (grant.info lockId, numberedKey book.selfHash.keyPrefix lockId) := by
  obtain ⟨dictionary, stored, encodes⟩ := represents.entries
  have read := encodes.lookup (numberedKey_injective _) lockId
  rw [kept.entries, Registry.entry] at read
  have bound : book.index < lockId ↔ registry.grants.length < lockId.toNat := by
    rw [UInt64.lt_iff_toNat_lt, kept.count]
  have valid : isIdValid lockId storage = refuse (registry.grants.length < lockId.toNat)
      .invalidArgument := by
    simp only [isIdValid, getKey, represents.index, refuse, ← bound]
    rfl
  simp only [getLock, Registry.grantOf, valid, refuse_bind]
  split
  · rfl
  · simp only [stored, represents.makeLockKeyId_eq]
    change unwrapOrRevert (dictionary.lookup _) >>= _ = _
    rw [read]
    cases registry.grants[lockId.toNat]? with
    | none => rfl
    | some entry =>
        cases entry with
        | none => rfl
        | some grant =>
            have nonempty : (grant.info lockId).pack ≠ [] := VestInfo.pack_ne_nil _
            simp only [Option.map_some, unwrapOrRevert, unwrapOrRevertWith, entryBytes, ok_bind,
              isValidEntry, if_neg nonempty, pure_bind, callerIsRecipient_eq,
              VestInfo.unpack_pack]
            by_cases different : grant.owner ≠ context.caller
            · have differentToo : (grant.info lockId).recipient ≠ context.caller := different
              rw [if_pos different, if_pos differentToo]
              rfl
            · have same : ¬ (grant.info lockId).recipient ≠ context.caller := different
              rw [if_neg different, if_neg same]
              rfl

end Find

/-! ## The schedules of a new lock -/

section Schedules

variable {cliffAmount : U256} {firstUnlock timeBetweenLocks : UInt64} {numberOfLocks : UInt32}

private theorem mapM_eq_error {α β : Type} {round : α → Except Failure β} {failure : Failure}
    {list : List α} (only : ∀ value ∈ list, (∃ result, round value = .ok result) ∨
      round value = .error failure) {value : α} (member : value ∈ list)
    (fails : round value = .error failure) : list.mapM round = .error failure := by
  induction list with
  | nil => cases member
  | cons head rest ih =>
      rw [List.mapM_cons]
      rcases only head List.mem_cons_self with ⟨result, succeeds⟩ | failsFirst
      · have later : rest.mapM round = .error failure := by
          refine ih (fun value inside => only value (List.mem_cons_of_mem _ inside)) ?_
          rcases List.mem_cons.mp member with rfl | inside
          · rw [succeeds] at fails
            cases fails
          · exact inside
        rw [succeeds, ok_bind, later]
        rfl
      · rw [failsFirst]
        rfl

private theorem round_eq (nonzero : numberOfLocks ≠ 0) {len : Nat} (counted : len < 2 ^ 32) :
    (do
      let offset ← unwrapOrRevert (checkedMul timeBetweenLocks (.ofNat len))
      let amount ← orPanic (cliffAmount.checkedDiv (.ofUInt64 numberOfLocks.toUInt64))
      return ({ release := firstUnlock + offset, amount } : LockSchedule)) =
      if timeBetweenLocks.toNat * len < 2 ^ 64 then
        .ok {
          release := .ofNat (firstUnlock.toNat + len * timeBetweenLocks.toNat)
          amount := ⟨cliffAmount.toNat / numberOfLocks.toNat,
            lt_of_le_of_lt (Nat.div_le_self _ _) cliffAmount.isLt⟩ }
      else .error (.revert .none) := by
  have word : (UInt64.ofNat len).toNat = len :=
    UInt64.toNat_ofNat_of_lt' (lt_trans counted (by decide))
  have divisor : 0 < (U256.ofUInt64 numberOfLocks.toUInt64).toNat := by
    rw [U256.toNat_ofUInt64, UInt32.toNat_toUInt64]
    exact Nat.pos_of_ne_zero fun zero => nonzero (UInt32.toNat_inj.mp zero)
  have quotient : cliffAmount.checkedDiv (.ofUInt64 numberOfLocks.toUInt64) =
      some ⟨cliffAmount.toNat / numberOfLocks.toNat,
        lt_of_le_of_lt (Nat.div_le_self _ _) cliffAmount.isLt⟩ := by
    rw [U256.checkedDiv_eq_some]
    exact ⟨divisor, by simp⟩
  simp only [checkedMul, word]
  split
  · rename_i fits
    have product : (timeBetweenLocks * UInt64.ofNat len).toNat =
        len * timeBetweenLocks.toNat := by
      rw [UInt64.toNat_mul, word, Nat.mod_eq_of_lt fits, Nat.mul_comm]
    have release : firstUnlock + timeBetweenLocks * UInt64.ofNat len =
        .ofNat (firstUnlock.toNat + len * timeBetweenLocks.toNat) := by
      apply UInt64.toNat_inj.mp
      rw [UInt64.toNat_add, product, UInt64.toNat_ofNat']
    rw [quotient, ← release]
    rfl
  · rfl

/-- The loop of `lock` makes equal parts unless an offset overflows. -/
theorem newSchedules_eq (nonzero : numberOfLocks ≠ 0) :
    newSchedules firstUnlock timeBetweenLocks cliffAmount numberOfLocks =
      (refuse (2 ^ 64 ≤ timeBetweenLocks.toNat * (numberOfLocks.toNat - 1)) .none).map fun _ =>
        Grant.parts firstUnlock.toNat timeBetweenLocks.toNat cliffAmount
          numberOfLocks.toNat := by
  have positive : 0 < numberOfLocks.toNat :=
    Nat.pos_of_ne_zero fun zero => nonzero (UInt32.toNat_inj.mp zero)
  have counted : ∀ len ∈ List.range numberOfLocks.toNat, len < 2 ^ 32 := fun len member =>
    lt_trans (List.mem_range.mp member) numberOfLocks.toNat_lt
  unfold refuse
  split
  · rename_i overflows
    have last : numberOfLocks.toNat - 1 ∈ List.range numberOfLocks.toNat :=
      List.mem_range.mpr (Nat.sub_lt positive one_pos)
    refine mapM_eq_error (fun len member => ?_) last ?_
    · rw [round_eq nonzero (counted len member)]
      split
      · exact .inl ⟨_, rfl⟩
      · exact .inr rfl
    · rw [round_eq nonzero (counted _ last),
        if_neg (Nat.not_lt.mpr overflows)]
  · rename_i fits
    refine mapM_eq_ok.mpr ?_
    rw [Grant.parts, List.forall₂_map_right_iff, List.forall₂_same]
    intro len member
    have le : len ≤ numberOfLocks.toNat - 1 := Nat.le_sub_one_of_lt (List.mem_range.mp member)
    rw [round_eq nonzero (counted len member), if_pos]
    exact lt_of_le_of_lt (Nat.mul_le_mul_left _ le) (Nat.not_le.mp fits)

end Schedules

/-! ## Entry points -/

section EntryPoints

variable {storage : Storage} {vault : Vault} {log : List Event} {context : Context}

private theorem follows_access (realises : Realises storage vault log) {lockId : UInt64}
    {f : VestInfo × DictKey → Contract Unit}
    {g : Registry × Grant → Except Failure (Effect TokenCall Event Vault)}
    (onward : ∀ (book : Book) (registry : Registry) (grant : Grant),
      vault = ⟨book.admin, book.paused, some registry⟩ → Represents storage book →
      Sound book log → Listed book → registry.KeptIn book →
      lockId.toNat < registry.grants.length →
      Access context book lockId (grant.info lockId) →
      Follows (f (grant.info lockId, numberedKey book.selfHash.keyPrefix lockId)) storage log
        (g (registry, grant))) :
    Follows (isPaused >>= fun paused => revertIf paused (.user 14) >>= fun _ =>
      Prog.reads (getLock context lockId) >>= f) storage log
      (vault.access context lockId >>= g) := by
  simp only [Vault.access, bind_assoc]
  apply follows_unpaused realises
  intro unpaused
  cases realises with
  | closed => exact .error rfl
  | @opened _ book registry _ represents sound listed kept =>
      apply Meets.reads_bind _ (getLock_eq represents kept)
      intro grant found
      obtain ⟨here, owned⟩ := grantOf_eq_ok.mp found
      have inside : lockId.toNat < registry.grants.length :=
        (List.getElem?_eq_some_iff.mp here).1
      have stored : book.lock lockId = some (grant.info lockId) := by
        rw [Book.lock_eq_some, kept.entries, Registry.entry, here]
        rfl
      have valid : lockId ≤ book.index := by
        rw [UInt64.le_iff_toNat_le, kept.count]
        exact inside.le
      exact onward book registry grant rfl represents sound listed kept inside
        ⟨unpaused, valid, stored, owned⟩

theorem follows_init (realises : Realises storage vault log) (contHash : ContractPackageHash) :
    Follows (init contHash) storage log (vault.step context (.init contHash)) := by
  cases realises with
  | @closed admin paused =>
      refine .ok rfl fun _ => ?_
      exact .opened (represents_initialised admin paused contHash) sound_empty listed_empty.1
        ⟨rfl, rfl, fun _ => rfl⟩
  | opened represents sound listed kept =>
      apply Meets.reads_bind_ok rfl
      rw [represents.initialized]
      exact .error rfl

private theorem realises_put {book book' : Book} {registry : Registry} {lockId : UInt64}
    {entry : Option Grant} {call : Call} {requests : List TokenCall} {events : List Event}
    {storage' : Storage} (sound : Sound book log) (listed : Listed book)
    (kept : registry.KeptIn book) (inside : lockId.toNat < registry.grants.length)
    (few : FewLocks (log ++ events)) (represents' : Represents storage' book')
    (change : Change context book call requests events book')
    (admin : book'.admin = book.admin) (paused : book'.paused = book.paused)
    (self : book'.selfHash = book.selfHash) (index : book'.index = book.index)
    (entries : ∀ other, book'.entries.lookup other =
      if other = lockId then some (entry.map fun grant => grant.info lockId)
      else book.entries.lookup other) :
    Realises storage' (Vault.put ⟨book.admin, book.paused, some registry⟩ registry lockId entry)
      (log ++ events) := by
  rw [Vault.put, ← admin, ← paused]
  exact .opened represents' (sound.change few change) (listed.change sound change)
    (kept.put inside self index entries)

theorem follows_extendLock (realises : Realises storage vault log) (lockId : UInt64)
    (index : UInt32) (newRelease : UInt64) :
    Follows (extendLock context lockId index newRelease) storage log
      (vault.step context (.extendLock lockId index newRelease)) := by
  apply follows_access realises
  intro book registry grant isVault represents sound listed kept inside access
  subst isVault
  have sameSchedules : (grant.info lockId).schedules = grant.schedules := rfl
  dsimp only
  cases here : grant.schedules[index.toNat]? with
  | none =>
      rw [sameSchedules, here]
      exact .error rfl
  | some schedule =>
      rw [sameSchedules, here]
      apply follows_refuse Iff.rfl
      intro notLater
      have later : schedule.release ≤ newRelease := UInt64.not_lt.mp notLater
      have postponed : (grant.postpone index.toNat newRelease).info lockId = {
          grant.info lockId with
          schedules := (grant.info lockId).schedules.set index.toNat { schedule with
            release := newRelease } } := by
        simp [Grant.info, Grant.postpone, Grant.moved_eq_set here]
      obtain ⟨storage', put, represents'⟩ := represents.dictionaryPut_eq lockId (some
        { grant.info lockId with
          schedules := (grant.info lockId).schedules.set index.toNat { schedule with
            release := newRelease } })
      refine .ok (outcome_updates put) fun few => ?_
      apply realises_put sound listed kept inside few represents'
        (.extendLock access here later) rfl rfl rfl rfl
      intro other
      rw [Option.map_some, postponed]
      exact Book.putEntry_lookup book lockId other _

theorem follows_transferLock (realises : Realises storage vault log) (lockId : UInt64)
    (newOwner : AccountHash) :
    Follows (transferLock context lockId newOwner) storage log
      (vault.step context (.transferLock lockId newOwner)) := by
  apply follows_access realises
  intro book registry grant isVault represents sound listed kept inside access
  subst isVault
  have member : lockId ∈ book.idsOf context.caller := by
    rw [listed.mem_iff, Book.recipient, access.found, Option.map_some, access.owned]
  obtain ⟨storage', written⟩ := represents.exists_updateStorageTransferLock member newOwner
    { grant.info lockId with recipient := newOwner }
  obtain ⟨idx, position, represents'⟩ := represents.updateStorageTransferLock_eq_ok written
  refine .ok (outcome_updates written) fun few => ?_
  apply realises_put sound listed kept inside few represents' (.transferLock access position)
    rfl rfl rfl rfl
  intro other
  exact Book.putEntry_lookup (book.dropId context.caller idx) lockId other _

theorem follows_claim (realises : Realises storage vault log) (lockId : UInt64) :
    Follows (claim context lockId) storage log (vault.step context (.claim lockId)) := by
  apply follows_knowsCaller
  apply follows_access realises
  intro book registry grant isVault represents sound listed kept inside access
  subst isVault
  obtain ⟨⟨amount, schedules⟩, loop⟩ :
      ∃ result, claimSchedules context.blocktime grant.schedules U256.zero = some result :=
    exists_claimSchedules (by simpa using grant.fits)
  obtain ⟨rfl, sums⟩ := claimSchedules_eq_some loop
  have paid : amount = grant.due context.blocktime := by
    apply U256.toNat_injective
    have split := grant.due_add_settle context.blocktime
    simp only [U256.toNat_zero, Nat.zero_add] at sums
    change _ + remaining (grant.schedules.map _) = _ at split
    omega
  subst paid
  change Follows (Prog.ofExcept (orPanic (claimSchedules context.blocktime grant.schedules
    U256.zero)) >>= _) storage log _
  rw [loop]
  apply follows_refuse U256.isZero_iff
  intro nonzero
  have member : lockId ∈ book.idsOf context.caller := by
    rw [listed.mem_iff, Book.recipient, access.found, Option.map_some, access.owned]
  obtain ⟨storage', written⟩ :=
    represents.exists_storeClaimed member ((grant.settle context.blocktime).info lockId)
  obtain ⟨book', stored, represents'⟩ := represents.storeClaimed_eq_ok written
  refine .ok (outcome_request_bind (outcome_updates_bind written rfl)) fun few => ?_
  apply realises_put sound listed kept inside few represents'
    (.claim access (grant.due_add_settle context.blocktime) (Nat.pos_of_ne_zero nonzero) stored)
  · cases stored <;> rfl
  · cases stored <;> rfl
  · cases stored <;> rfl
  · cases stored <;> rfl
  · intro other
    rw [stored.lookup]
    split
    · change some (if remaining (grant.settle context.blocktime).schedules = 0 then _ else _) = _
      split <;> rfl
    · rfl

private theorem admin_eq (realises : Realises storage vault log) :
    storage.admin = vault.admin := by
  cases realises with
  | closed => rfl
  | opened represents _ _ _ => exact represents.admin

theorem follows_setAdmin (realises : Realises storage vault log) (account : AccountHash) :
    Follows (setAdmin context account) storage log
      (vault.step context (.setAdmin account)) := by
  apply Meets.reads_bind_ok rfl
  rw [admin_eq realises]
  apply follows_refuse Iff.rfl
  intro isAdmin
  refine .ok rfl fun few => ?_
  cases realises with
  | closed => exact .closed
  | @opened _ book _ _ represents sound listed kept =>
      have change : Change context book (.setAdmin account) [] [] { book with admin := account } :=
        .setAdmin (not_not.mp isAdmin)
      exact .opened (represents.setAdmin account) (sound.change few change) listed
        ⟨kept.self, kept.count, kept.entries⟩

theorem follows_setPauseContract (realises : Realises storage vault log) :
    Follows (setPauseContract context) storage log
      (vault.step context .setPauseContract) := by
  apply Meets.reads_bind_ok rfl
  rw [admin_eq realises]
  apply follows_refuse Iff.rfl
  intro isAdmin
  apply Meets.reads_bind_ok rfl
  refine .ok rfl fun few => ?_
  cases realises with
  | closed => exact .closed
  | @opened _ book _ _ represents sound listed kept =>
      have change : Change context book .setPauseContract [] []
          { book with paused := !book.paused } := .setPauseContract (not_not.mp isAdmin)
      rw [represents.paused]
      exact .opened (represents.setPaused (!book.paused)) (sound.change few change) listed
        ⟨kept.self, kept.count, kept.entries⟩

private theorem checkedAdd_eq (a b : UInt64) :
    unwrapOrRevert (checkedAdd a b) =
      (refuse (2 ^ 64 ≤ a.toNat + b.toNat) .none).map fun _ => a + b := by
  unfold checkedAdd refuse
  by_cases fits : a.toNat + b.toNat < 2 ^ 64
  · rw [if_pos fits, if_neg (Nat.not_le.mpr fits)]
    rfl
  · rw [if_neg fits, if_pos (Nat.not_lt.mp fits)]
    rfl

private theorem exists_updateStorage {book : Book} (represents : Represents storage book)
    (lockId : UInt64) (info : VestInfo) (account : AccountHash) :
    ∃ storage', updateStorage (hasKey account.toChars storage)
      (numberedKey book.selfHash.keyPrefix lockId) info.pack lockId account.toChars storage =
        .ok storage' := by
  obtain ⟨stored, put, -⟩ := represents.dictionaryPut_eq lockId (some info)
  exact ⟨_, bind_eq_ok.mpr ⟨stored, put, rfl⟩⟩

theorem follows_lock (realises : Realises storage vault log) (tokh : ContractHash)
    (cliffAmount : U256) (cliffDurtime timeBetweenLocks : UInt64) (numberOfLocks : UInt32) :
    Follows (lock context tokh cliffAmount cliffDurtime timeBetweenLocks numberOfLocks)
      storage log (vault.step context
        (.lock tokh cliffAmount cliffDurtime timeBetweenLocks numberOfLocks)) := by
  apply follows_knowsCaller
  apply follows_unpaused realises
  intro unpaused
  cases realises with
  | closed => exact .error rfl
  | @opened _ book registry _ represents sound listed kept =>
      obtain ⟨dictionary, storedInfos, -⟩ := represents.entries
      apply Meets.reads_bind_ok (a := dictionary) (by rw [storedInfos]; rfl)
      change Follows _ storage log (refuse _ .none >>= fun _ => _)
      apply Meets.ofExcept_bind _ (checkedAdd_eq context.blocktime cliffDurtime)
      intro _ fits
      apply follows_refuse Iff.rfl
      intro nonzero
      apply Meets.ofExcept_bind _ (newSchedules_eq nonzero)
      intro _ product
      have first : (context.blocktime + cliffDurtime).toNat =
          context.blocktime.toNat + cliffDurtime.toNat := by
        rw [UInt64.toNat_add]
        exact Nat.mod_eq_of_lt (Nat.not_le.mp (refuse_eq_ok.mp fits))
      have loop : newSchedules (context.blocktime + cliffDurtime) timeBetweenLocks cliffAmount
          numberOfLocks = .ok (Grant.parts (context.blocktime.toNat + cliffDurtime.toNat)
            timeBetweenLocks.toNat cliffAmount numberOfLocks.toNat) := by
        rw [newSchedules_eq nonzero, product, first]
        rfl
      have next : book.index = .ofNat registry.grants.length := by
        rw [← kept.count, UInt64.ofNat_toNat]
      apply Meets.reads_bind_ok (a := book.index) (by rw [represents.index]; rfl)
      apply Meets.reads_bind_ok (represents.makeLockKeyId_eq book.index)
      apply Meets.reads_bind_ok represents.selfContractHash_eq
      rw [first]
      let grant : Grant := {
        since := context.blocktime
        owner := context.caller
        token := tokh
        schedules := Grant.parts (context.blocktime.toNat + cliffDurtime.toNat)
          timeBetweenLocks.toNat cliffAmount numberOfLocks.toNat
        fits := by
          rw [Grant.remaining_parts]
          exact lt_of_le_of_lt (Nat.mul_div_le _ _) cliffAmount.isLt }
      obtain ⟨stored, written⟩ :=
        exists_updateStorage represents book.index (grant.info book.index) context.caller
      have represents' := (represents.updateStorage_quietly written).setIndex (book.index + 1)
      have change : Change context book
          (.lock tokh cliffAmount cliffDurtime timeBetweenLocks numberOfLocks)
          [InteractErc20.transferFrom tokh context.caller book.selfHash cliffAmount]
          [.locked (grant.info book.index)] _ :=
        .lock unpaused ⟨rfl, rfl, rfl, rfl, loop⟩
      change Follows _ storage log (.ok {
        requests := [.transferFrom tokh (.account context.caller) (.contract registry.self)
          cliffAmount]
        events := [.locked (grant.info (.ofNat registry.grants.length))]
        next := Vault.add ⟨book.admin, book.paused, some registry⟩ registry grant })
      rw [← next, ← kept.self]
      refine .ok (outcome_request_bind (outcome_updates_bind written
        (outcome_updates_bind rfl rfl))) fun few => ?_
      have kept' : Registry.KeptIn { registry with grants := registry.grants ++ [some grant] }
          { (book.putEntry book.index (some (grant.info book.index))).pushId context.caller
            book.index with index := book.index + 1 } := by
        refine ⟨kept.self, ?_, fun other => ?_⟩
        · rw [sound.index_eq few change, kept.count]
          change _ = (registry.grants ++ [some grant]).length
          rw [List.length_append]
          rfl
        · rw [Registry.entry_add kept.count, ← kept.entries]
          exact Book.putEntry_lookup book book.index other _
      have realised := Realises.opened represents' (sound.change few change)
        (listed.change sound change) kept'
      exact realised

theorem follows_step (realises : Realises storage vault log) (call : Call) :
    Follows (call.program context) storage log (vault.step context call) := by
  cases call with
  | init contHash => exact follows_init realises contHash
  | lock tokh cliffAmount cliffDurtime timeBetweenLocks numberOfLocks =>
      exact follows_lock realises tokh cliffAmount cliffDurtime timeBetweenLocks numberOfLocks
  | extendLock lockId index newRelease =>
      exact follows_extendLock realises lockId index newRelease
  | transferLock lockId newOwner => exact follows_transferLock realises lockId newOwner
  | claim lockId => exact follows_claim realises lockId
  | setAdmin account => exact follows_setAdmin realises account
  | setPauseContract => exact follows_setPauseContract realises

end EntryPoints

/-! ## Histories -/

/-- What anyone can read of the contract is what the vault holds. -/
structure Vault.ShownBy (vault : Vault) (storage : Storage) : Prop where
  admin : storage.admin = vault.admin
  paused : storage.paused = vault.paused
  initialized : storage.initialized = vault.registry.isSome
  self : storage.selfContractHash = vault.registry.map Registry.self
  index : storage.index = vault.registry.map fun registry => .ofNat registry.grants.length
  bytes : ∀ lockId, storedBytes lockId storage =
    vault.registry.bind fun registry => (registry.entry lockId).map entryBytes
  nodup : ∀ account, (storedIds account storage).Nodup
  mem_iff : ∀ account lockId, lockId ∈ storedIds account storage ↔
    ∃ grant, vault.grant lockId = some grant ∧ grant.owner = account

theorem Realises.shown {storage : Storage} {vault : Vault} {log : List Event}
    (realises : Realises storage vault log) : vault.ShownBy storage := by
  cases realises with
  | closed =>
      refine ⟨rfl, rfl, rfl, rfl, rfl, fun _ => rfl, ?_, ?_⟩
      · simp [storedIds, Storage.installed]
      · simp [storedIds, Storage.installed, Vault.grant, Vault.installed]
  | @opened _ book registry _ represents sound listed kept =>
      refine ⟨represents.admin, represents.paused, represents.initialized, ?_, ?_, ?_, ?_, ?_⟩
      · rw [represents.selfHash, kept.self]
        rfl
      · rw [represents.index, Option.map_some, ← kept.count, UInt64.ofNat_toNat]
      · intro lockId
        rw [represents.storedBytes_eq, kept.entries]
        rfl
      · intro account
        rw [represents.storedIds_eq]
        exact listed.nodup account
      · intro account lockId
        rw [represents.storedIds_eq, listed.mem_iff, Book.recipient, Book.lock, kept.entries]
        change _ ↔ ∃ grant, (registry.grants[lockId.toNat]?).bind id = _ ∧ _
        unfold Registry.entry
        cases registry.grants[lockId.toNat]? with
        | none => simp
        | some entry =>
            cases entry with
            | none => simp
            | some grant => simp [Grant.info]

section Histories

variable {E : Type} {answer : TokenCall → E → E → Prop} {drift : E → E → Prop}
variable {admin : AccountHash} {paused : Bool} {e : E} {start now : UInt64}
  {steps : List (Step Context Call Storage E Event)} {w : VestWorld E}

/-- A history from the installation is a replay on the vault. -/
theorem realised
    (history : VestHistory answer drift start ⟨.installed admin paused, e, []⟩ steps now w)
    (few : FewLocks w.log) :
    ∃ vault : Vault, Vault.step.replay (calls steps) (.installed admin paused) =
      .ok (w.log, vault) ∧ Realises w.storage vault w.log := by
  have initially : Realises (.installed admin paused) (.installed admin paused) [] := .closed
  have each : ∀ context call storage vault log, Realises storage vault log →
      Meets Realises FewLocks ((setting answer drift).program context call) storage log
        (vault.step context call) :=
    fun context call storage vault log realises => follows_step realises call
  obtain ⟨events, vault, replayed, log, realises⟩ :=
    history.specified (fun _ _ few => few.earlier) each initially few
  rw [List.nil_append] at log
  subst log
  exact ⟨vault, replayed, realises⟩

/-- The whole behaviour of the contract.  A history from the installation is a replay of
its calls on the vault, with the same events, and what can be read in the end is what the
vault holds.  From there every call, once its arguments are parsed, fails exactly when and
how the step of the vault does, which is never a panic, and otherwise goes through exactly
when the tokens answer what the step asks of them, and shows the next vault. -/
theorem vault_refined
    (history : VestHistory answer drift start ⟨.installed admin paused, e, []⟩ steps now w)
    (few : FewLocks w.log) :
    ∃ vault : Vault, Vault.step.replay (calls steps) (.installed admin paused) =
        .ok (w.log, vault) ∧ vault.ShownBy w.storage ∧
      ∀ (context : Context) (call : Call),
        match vault.step context call with
        | .error refusal => refusal ≠ .panic ∧
            (∀ w', ¬ Runs (Quiet answer) (call.program context) w () w') ∧
            ∀ failed, Fails (Quiet answer) (call.program context) w failed ↔ failed = refusal
        | .ok effect =>
            (∀ failed, ¬ Fails (Quiet answer) (call.program context) w failed) ∧
            ∃ storage', (FewLocks (w.log ++ effect.events) → effect.next.ShownBy storage') ∧
              ∀ w', Runs (Quiet answer) (call.program context) w () w' ↔
                ∃ e', Answers answer effect.requests w.outside e' ∧
                  w' = ⟨storage', e', w.log ++ effect.events⟩ := by
  obtain ⟨vault, replayed, realises⟩ := realised history few
  refine ⟨vault, replayed, realises.shown, fun context call => ?_⟩
  have meets : Follows (call.program context) w.storage w.log (vault.step context call) :=
    follows_step realises call
  cases isStep : vault.step context call with
  | error refusal =>
      rw [isStep] at meets
      obtain ⟨stuck, fails⟩ := meets.of_error answer
      refine ⟨?_, stuck, fails⟩
      rintro rfl
      exact Vault.neverPanics_step call isStep
  | ok effect =>
      rw [isStep] at meets
      obtain ⟨safe, storage', realises', runs⟩ := meets.of_ok answer
      exact ⟨safe, storage', fun few => (realises' few).shown, runs⟩

end Histories

namespace Sample

theorem history_calls {calls' : List (UInt64 × AccountHash × Call)} {now : UInt64}
    {first : VestWorld Erc20Ledger} (success : (replayed calls' now first).isSome) :
    ∃ steps later, VestHistory answer drift now first steps later
        (after calls' now first success) ∧
      calls steps = calls'.map fun (blocktime, caller, entry) =>
        ({ caller, blocktime }, entry) := by
  obtain ⟨result, replays⟩ := Option.isSome_iff_exists.mp success
  have same : after calls' now first success = result.2 := by
    simp [after, replays]
  rw [same]
  unfold replayed at replays
  obtain ⟨later, history⟩ := History.replayed (fun _ _ _ answered => answered) .start replays
  exact ⟨_, later, history, calls_of_replaySteps replays⟩

end Sample

section Sample

open Sample Staking.Sample

/-- Two locks; one is put off, claimed in part and handed over while the other stays. -/
def halfClaimed : VestWorld Erc20Ledger :=
  after
    [setUp, (10, staker 1, .lock tokenA (units 60) 40 50 3),
      (10, staker 2, .lock tokenB (units 10) 90 0 1), (20, staker 1, .extendLock 0 2 400),
      (60, staker 1, .claim 0), (70, staker 1, .transferLock 0 (staker 2))]
    0 opening (by decide +kernel)

theorem vault_refined_halfClaimed :
    ∃ vault : Vault, vault.ShownBy halfClaimed.storage ∧
      ∃ grant, vault.grant 0 = some grant ∧ grant.owner = staker 2 := by
  obtain ⟨steps, later, history⟩ :
      ∃ steps later, VestHistory answer drift 0 opening steps later halfClaimed :=
    history_after _
  obtain ⟨vault, -, shown, -⟩ := vault_refined history (by decide +kernel)
  have listed : 0 ∈ storedIds (staker 2) halfClaimed.storage := by decide +kernel
  exact ⟨vault, shown, (shown.mem_iff (staker 2) 0).mp listed⟩

end Sample

end CasperContracts.Vesting
