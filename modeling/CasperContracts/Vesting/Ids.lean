import CasperContracts.Vesting.Run

/-!
# The ids of an account

The list under an account's name has no duplicates and consists of the ids of
the live locks the account receives.  So the id a claim or a transfer takes
out of the caller's list is always found: a transfer by the recipient goes
through, and a claim fails only when nothing is due.
-/

namespace CasperContracts.Vesting

open CasperContracts.Basis Host Prog

def Book.recipient (book : Book) (lockId : UInt64) : Option AccountHash :=
  (book.lock lockId).map VestInfo.recipient

def Listed (book : Book) : Prop :=
  Indexes book.recipient book.idsOf

def Fits (book : Book) : Prop :=
  ∀ lockId lock, book.lock lockId = some lock → remaining lock.schedules < 2 ^ 256

section Change

variable {context : Context} {book book' : Book} {call : Call} {requests : List TokenCall}
  {events log : List Event} {lockId : UInt64} {entry : Option VestInfo} {lock : VestInfo}

theorem putEntry_recipient (other : UInt64) :
    (book.putEntry lockId entry).recipient other =
      if other = lockId then entry.map VestInfo.recipient else book.recipient other := by
  rw [Book.recipient, Book.putEntry_lock]
  split <;> rfl

private theorem Listed.putEntry (listed : Listed book)
    (found : book.lock lockId = some lock) {lock' : VestInfo}
    (same : lock'.recipient = lock.recipient) :
    Listed (book.putEntry lockId (some lock')) := by
  refine listed.congr fun other => ?_
  rw [putEntry_recipient]
  split
  · rename_i equal
    simp [equal, Book.recipient, found, same]
  · rfl

theorem Listed.change (listed : Listed book) (sound : Sound book log)
    (change : Change context book call requests events book') : Listed book' := by
  cases change with
  | @lock _ _ _ _ _ info unpaused new =>
      have free : book.recipient book.index = none := by
        simp [Book.recipient, Book.lock, sound.vacant]
      have owners : ∀ other, ((book.putEntry book.index (some info)).pushId context.caller
          book.index).recipient other =
          if other = book.index then some context.caller else book.recipient other := by
        intro other
        rw [← new.recipient]
        exact putEntry_recipient other
      exact listed.acquire free owners
        (Book.pushId_idsOf (book.putEntry book.index (some info)) book.index context.caller)
  | extendLock access here later => exact Listed.putEntry listed access.found rfl
  | @transferLock lockId newOwner lock idx access transferred =>
      obtain rfl : lock.id = lockId := sound.own lockId lock access.found
      -- the lock has no owner between the two lists
      have dropped : Indexes
          (fun other => if other = lock.id then none else book.recipient other)
          (book.dropId context.caller idx).idsOf :=
        listed.release transferred (fun other => rfl)
          (Book.dropId_idsOf book context.caller · idx)
      have owners : ∀ other, (((book.dropId context.caller idx).putEntry lock.id (some { lock with
          recipient := newOwner })).pushId newOwner lock.id).recipient other =
          if other = lock.id then some newOwner
          else if other = lock.id then none else book.recipient other := by
        intro other
        refine (putEntry_recipient other).trans ?_
        split <;> rfl
      exact dropped.acquire (if_pos rfl) owners
        (Book.pushId_idsOf ((book.dropId context.caller idx).putEntry lock.id _) lock.id
          newOwner)
  | @claim lockId lock amount _ access paid nonzero stored =>
      cases stored with
      | part some => exact Listed.putEntry listed access.found rfl
      | @finished idx nothing taken =>
          exact listed.release taken (fun other => putEntry_recipient other)
            (Book.dropId_idsOf (book.putEntry lockId none) context.caller · idx)
  | setAdmin admin => exact listed
  | setPauseContract admin => exact listed

theorem Fits.change (fits : Fits book)
    (change : Change context book call requests events book') : Fits book' := by
  intro lockId lock' found'
  rw [Book.lock_eq_some] at found'
  cases change.entry lockId with
  | untouched same =>
      rw [same, ← Book.lock_eq_some] at found'
      exact fits lockId lock' found'
  | created _ _ fitsNew stored =>
      cases stored.symm.trans found'
      exact fitsNew
  | @touched lock _ found _ stored touch =>
      cases stored.symm.trans found'
      exact lt_of_le_of_lt touch.remaining_le (fits lockId lock found)

end Change

/-! ## Reached states -/

section Reached

variable {E : Type} {answer : TokenCall → E → E → Prop} {drift : E → E → Prop}
variable {start now : UInt64} {first w : VestWorld E} {book : Book} {context : Context}
  {steps : List (Step Context Call Storage E Event)} {lockId : UInt64} {lock : VestInfo}

theorem listed_law : Law answer drift fun book _ _ => Listed book ∧ Fits book where
  drift := fun holds _ => holds
  change := fun sound holds change _ => ⟨holds.1.change sound change, holds.2.change change⟩

private theorem getLock_of_recipient (represents : Represents w.storage book)
    (sound : Sound book w.log) (found : book.lock lockId = some lock)
    (owned : lock.recipient = context.caller) :
    getLock context lockId w.storage =
      .ok (lock, numberedKey book.selfHash.keyPrefix lockId) :=
  represents.getLock_eq_ok.mpr
    ⟨UInt64.le_of_lt (sound.found_below found), found, owned, rfl⟩

private theorem mem_idsOf (listed : Listed book) (found : book.lock lockId = some lock)
    (owned : lock.recipient = context.caller) : lockId ∈ book.idsOf context.caller := by
  rw [listed.mem_iff, Book.recipient, found, Option.map_some, owned]

/-- A transfer goes through when the caller's list has the id. -/
theorem exists_transferLock_of_mem (represents : Represents w.storage book)
    (sound : Sound book w.log) (member : lockId ∈ book.idsOf context.caller)
    (unpaused : book.paused = false)
    (found : book.lock lockId = some lock) (owned : lock.recipient = context.caller)
    (newOwner : AccountHash) :
    ∃ w', Runs (Quiet answer) (transferLock context lockId newOwner) w () w' := by
  have read := getLock_of_recipient represents sound found owned
  have listed : lock.id ∈ book.idsOf context.caller := by
    rw [sound.own lockId lock found]
    exact member
  obtain ⟨storage', written⟩ := represents.exists_updateStorageTransferLock listed newOwner
    { lock with recipient := newOwner }
  refine ⟨{ w with storage := storage' }, ?_⟩
  simp only [transferLock, runs_isPaused_bind, runs_revertIf_bind, runs_reads_bind,
    runs_updates, represents.paused, unpaused, read, Except.ok.injEq, exists_eq_left']
  exact ⟨by simp, storage', written, rfl⟩

private theorem exists_transferLock (represents : Represents w.storage book)
    (sound : Sound book w.log) (listed : Listed book) (unpaused : book.paused = false)
    (found : book.lock lockId = some lock) (owned : lock.recipient = context.caller)
    (newOwner : AccountHash) :
    ∃ w', Runs (Quiet answer) (transferLock context lockId newOwner) w () w' :=
  exists_transferLock_of_mem represents sound (mem_idsOf listed found owned) unpaused found
    owned newOwner

/-- A claim fails only for want of something due when the caller's list has the id. -/
theorem fails_claim_of_mem (represents : Represents w.storage book)
    (sound : Sound book w.log) (member : lockId ∈ book.idsOf context.caller) (fits : Fits book)
    (unpaused : book.paused = false) (found : book.lock lockId = some lock)
    (owned : lock.recipient = context.caller) {failure : Failure}
    (fails : Fails (Quiet answer) (claim context lockId) w failure) :
    failure = .revert (.user 9) := by
  have read := getLock_of_recipient represents sound found owned
  obtain ⟨⟨amount, schedules⟩, loop⟩ :
      ∃ result, claimSchedules context.blocktime lock.schedules U256.zero = some result :=
    exists_claimSchedules (by simpa using fits lockId lock found)
  simp only [claim, fails_knowsCaller_bind, fails_isPaused_bind, fails_revertIf_bind,
    fails_reads_bind, fails_ofExcept_bind, fails_request_bind, fails_updates_bind, fails_record,
    represents.paused, unpaused, read, Except.ok.injEq, exists_eq_left', reduceCtorEq,
    Bool.false_eq_true, not_false_eq_true, false_and, true_and, false_or, and_false,
    exists_false, or_false, loop, orPanic] at fails
  rcases fails with ⟨-, nothingDue⟩ | ⟨-, u, ⟨e, -, rfl⟩, stuck⟩
  · exact nothingDue
  · obtain ⟨storage', written⟩ :=
      represents.exists_storeClaimed member { lock with schedules }
    cases stuck.symm.trans written

private theorem fails_claim (represents : Represents w.storage book)
    (sound : Sound book w.log) (listed : Listed book) (fits : Fits book)
    (unpaused : book.paused = false) (found : book.lock lockId = some lock)
    (owned : lock.recipient = context.caller) {failure : Failure}
    (fails : Fails (Quiet answer) (claim context lockId) w failure) :
    failure = .revert (.user 9) :=
  fails_claim_of_mem represents sound (mem_idsOf listed found owned) fits unpaused found owned
    fails

theorem exists_claim_of_mem (represents : Represents w.storage book)
    (sound : Sound book w.log) (member : lockId ∈ book.idsOf context.caller)
    (unpaused : book.paused = false)
    (found : book.lock lockId = some lock) (owned : lock.recipient = context.caller)
    {amount : U256} {schedules : List LockSchedule} {e : E}
    (loop : claimSchedules context.blocktime lock.schedules U256.zero =
      some (amount, schedules)) (nonzero : 0 < amount.toNat)
    (answered : answer (InteractErc20.transfer lock.tokenHash context.caller amount)
      w.outside e) :
    ∃ w', Runs (Quiet answer) (claim context lockId) w () w' := by
  have read := getLock_of_recipient represents sound found owned
  obtain ⟨storage', written⟩ :=
    represents.exists_storeClaimed member { lock with schedules }
  have quiet : Quiet answer (InteractErc20.transfer lock.tokenHash context.caller amount)
      w { w with outside := e } := ⟨e, answered, rfl⟩
  let payout : Payout := {
    lockId
    payee := context.caller
    timestamp := context.blocktime
    amount
    before := lock.schedules
    after := schedules }
  refine ⟨⟨storage', e, w.log ++ [.claimed payout]⟩, ?_⟩
  simp only [claim, runs_knowsCaller_bind, runs_isPaused_bind, runs_revertIf_bind,
    runs_reads_bind, runs_ofExcept_bind, runs_request_bind, runs_updates_bind, runs_record,
    orPanic_eq_ok, represents.paused, unpaused, read, loop, Except.ok.injEq, exists_eq_left',
    Option.some.injEq]
  refine ⟨by simp, ?_, _, quiet, storage', written, rfl⟩
  simpa [Nat.pos_iff_ne_zero] using nonzero

theorem exists_claim (represents : Represents w.storage book)
    (sound : Sound book w.log) (listed : Listed book) (unpaused : book.paused = false)
    (found : book.lock lockId = some lock) (owned : lock.recipient = context.caller)
    {amount : U256} {schedules : List LockSchedule} {e : E}
    (loop : claimSchedules context.blocktime lock.schedules U256.zero =
      some (amount, schedules)) (nonzero : 0 < amount.toNat)
    (answered : answer (InteractErc20.transfer lock.tokenHash context.caller amount)
      w.outside e) :
    ∃ w', Runs (Quiet answer) (claim context lockId) w () w' :=
  exists_claim_of_mem represents sound (mem_idsOf listed found owned) unpaused found owned loop
    nonzero answered

theorem listed_empty {admin : AccountHash} {paused : Bool} {selfHash : ContractPackageHash} :
    Listed (.empty admin paused selfHash) ∧ Fits (.empty admin paused selfHash) :=
  ⟨indexes_empty, by simp [Fits, Book.lock, Book.empty]⟩

/-- In every state of a run the list of every account has no duplicates and
consists of the ids of its live locks.  A transfer by the recipient goes through,
and a claim fails only for want of something due. -/
theorem ids_exact (fresh : Uninitialised first.storage) (empty : first.log = [])
    (history : VestHistory answer drift start first steps now w) (few : FewLocks w.log) :
    (∀ account, (storedIds account w.storage).Nodup) ∧
    (∀ account lockId, lockId ∈ storedIds account w.storage ↔
      ∃ lock, storedLock lockId w.storage = some lock ∧ lock.recipient = account) ∧
    ∀ lockId lock, storedLock lockId w.storage = some lock → w.storage.paused = false →
      ∀ context : Context, context.caller = lock.recipient →
        (∀ newOwner, ∃ w',
          Runs (Quiet answer) (transferLock context lockId newOwner) w () w') ∧
        ∀ failure, Fails (Quiet answer) (claim context lockId) w failure →
          failure = .revert (.user 9) := by
  rcases listed_law.reached (fun _ _ _ _ => listed_empty) fresh empty history few with
    ⟨⟨admin, paused, still⟩, -⟩ | ⟨book, represents, sound, listed, fits⟩
  · rw [still]
    refine ⟨?_, ?_, ?_⟩ <;>
      simp [storedIds, storedLock, storedBytes, Storage.installed]
  · refine ⟨fun account => ?_, fun account lockId => ?_, ?_⟩
    · rw [represents.storedIds_eq]
      exact listed.nodup account
    · rw [represents.storedIds_eq, represents.storedLock_eq, listed.mem_iff, Book.recipient,
        Option.map_eq_some_iff]
    · intro lockId lock stored unpaused context caller
      rw [represents.storedLock_eq] at stored
      rw [represents.paused] at unpaused
      exact ⟨exists_transferLock represents sound listed unpaused stored caller.symm,
        fun failure => fails_claim represents sound listed fits unpaused stored caller.symm⟩

end Reached

section Sample

open Sample Staking.Sample

/-- One staker locks twice and another once; a lock goes to the second staker and
back, another to a third, and the last one is claimed. -/
def passedOn : VestWorld Erc20Ledger :=
  after
    [setUp, (10, staker 1, .lock tokenA (units 30) 90 50 3),
      (10, staker 1, .lock tokenA (units 20) 90 50 2),
      (10, staker 2, .lock tokenB (units 10) 90 0 1),
      (20, staker 1, .transferLock 0 (staker 2)), (30, staker 2, .transferLock 0 (staker 1)),
      (40, staker 1, .transferLock 1 (staker 3)), (100, staker 2, .claim 2)]
    0 opening (by decide +kernel)

theorem ids_exact_passedOn :
    (storedIds (staker 1) passedOn.storage).Nodup ∧
      (storedIds (staker 3) passedOn.storage).Nodup := by
  obtain ⟨steps, later, history⟩ :
      ∃ steps later, VestHistory answer drift 0 opening steps later passedOn :=
    history_after _
  have distinct := (ids_exact ⟨owner, false, rfl⟩ rfl history (by decide +kernel)).1
  exact ⟨distinct (staker 1), distinct (staker 3)⟩

example : storedIds (staker 1) passedOn.storage = [0] ∧
    storedIds (staker 2) passedOn.storage = [] ∧ storedIds (staker 3) passedOn.storage = [1] := by
  decide +kernel

end Sample

end CasperContracts.Vesting
