import CasperContracts.Vesting.Ids
import CasperContracts.Vesting.Payouts

/-!
# What `lock` creates

The lock a call stores, for any tokens: its release times are the ones asked for
exactly when the last of them fits in a word, and its amounts add up to what was
pulled exactly when the number of schedules divides it.  The remainder of the
division is in no schedule, and nothing else pays it out.
-/

namespace CasperContracts.Vesting

open CasperContracts.Basis Host Prog
open Staking (getKey)

/-- The lock that a `lock` from `w` to `w'` stores under its key. -/
structure Stores {E : Type} (respond : TokenCall → VestWorld E → VestWorld E → Prop)
    (context : Context) (tokh : ContractHash) (cliffAmount : U256)
    (cliffDurtime timeBetweenLocks : UInt64) (numberOfLocks : UInt32)
    (w w' : VestWorld E) (info : VestInfo) : Prop where
  positive : 0 < numberOfLocks.toNat
  id : w.storage.index = some info.id
  fields : info.lockTime = context.blocktime ∧ info.recipient = context.caller ∧
    info.tokenHash = tokh
  pulled : ∃ selfHash u, w.storage.selfContractHash = some selfHash ∧
    respond (InteractErc20.transferFrom tokh context.caller selfHash cliffAmount) w u
  stored : ∃ key, makeLockKeyId info.id w.storage = .ok key ∧
    w'.storage.lockInfos.bind (fun dictionary => dictionary.lookup key) = some info.pack
  loop : ∃ firstUnlock, checkedAdd context.blocktime cliffDurtime = some firstUnlock ∧
    newSchedules firstUnlock timeBetweenLocks cliffAmount numberOfLocks = .ok info.schedules

section Creation

variable {E : Type} {respond : TokenCall → VestWorld E → VestWorld E → Prop}
  {context : Context} {tokh : ContractHash} {cliffAmount : U256}
  {cliffDurtime timeBetweenLocks : UInt64} {numberOfLocks : UInt32}
  {w w' : VestWorld E} {info : VestInfo}

private theorem lockInfos_enlist {known : Bool} {userKey : List Char} {index : UInt64}
    {storage : Storage} :
    (enlist known userKey index storage).lockInfos = storage.lockInfos := by
  unfold enlist pushId
  split
  · split <;> rfl
  · rfl

/-- Every successful `lock` stores a lock, whatever the token did in between. -/
theorem exists_stores
    (run : Runs respond (lock context tokh cliffAmount cliffDurtime timeBetweenLocks
      numberOfLocks) w () w') :
    ∃ info, Stores respond context tokh cliffAmount cliffDurtime timeBetweenLocks
      numberOfLocks w w' info := by
  simp only [lock, runs_knowsCaller_bind, runs_isPaused_bind, runs_revertIf_bind, runs_reads_bind,
    runs_ofExcept_bind, runs_request_bind, runs_updates_bind, runs_record, getKey,
    selfContractHash, unwrapOrRevert, unwrapOrRevertWith_eq_ok, Except.ok.injEq,
    exists_eq_left'] at run
  obtain ⟨-, _, -, firstUnlock, first, some, schedules, loop, index, isIndex, key, isKey,
    selfHash, isSelf, u, answered, storage', written, rfl⟩ := run
  simp only [updateStorage, dictionaryPut, bind_eq_ok, pure_eq_ok, unwrapOrRevert,
    unwrapOrRevertWith_eq_ok] at written
  obtain ⟨_, ⟨dictionary, -, rfl⟩, rfl⟩ := written
  have positive : 0 < numberOfLocks.toNat :=
    Nat.pos_of_ne_zero fun zero => some (UInt32.toNat_inj.mp zero)
  let info : VestInfo := {
    id := index
    lockTime := context.blocktime
    recipient := context.caller
    tokenHash := tokh
    schedules }
  exact ⟨info, {
    positive
    id := isIndex
    fields := ⟨rfl, rfl, rfl⟩
    pulled := ⟨selfHash, u, isSelf, answered⟩
    stored := ⟨key, isKey, by simp [lockInfos_enlist, info]⟩
    loop := ⟨firstUnlock, first, loop⟩ }⟩

/-! ## Release times -/

/-- The release times that were asked for, in order and none before the first. -/
structure ExactReleases (timestamp cliffDurtime timeBetweenLocks : UInt64)
    (schedules : List LockSchedule) : Prop where
  exact : ∀ i s, schedules[i]? = some s → s.release.toNat =
    timestamp.toNat + cliffDurtime.toNat + i * timeBetweenLocks.toNat
  ordered : ∀ (i j : Nat) (s s' : LockSchedule), i ≤ j → schedules[i]? = some s →
    schedules[j]? = some s' → s.release ≤ s'.release
  notEarlier : ∀ s ∈ schedules, timestamp.toNat + cliffDurtime.toNat ≤ s.release.toNat

theorem exactReleases_of_exact {timestamp : UInt64} {schedules : List LockSchedule}
    (exact : ∀ i s, schedules[i]? = some s → s.release.toNat =
      timestamp.toNat + cliffDurtime.toNat + i * timeBetweenLocks.toNat) :
    ExactReleases timestamp cliffDurtime timeBetweenLocks schedules where
  exact := exact
  ordered := by
    intro i j s s' le here here'
    rw [UInt64.le_iff_toNat_le, exact i s here, exact j s' here']
    exact Nat.add_le_add_left (Nat.mul_le_mul_right _ le) _
  notEarlier := by
    intro s member
    obtain ⟨i, here⟩ := List.mem_iff_getElem?.mp member
    rw [exact i s here]
    exact Nat.le_add_right _ _

private theorem exactReleases_iff
    (stores : Stores respond context tokh cliffAmount cliffDurtime timeBetweenLocks
      numberOfLocks w w' info) :
    ExactReleases context.blocktime cliffDurtime timeBetweenLocks info.schedules ↔
      context.blocktime.toNat + cliffDurtime.toNat +
        (numberOfLocks.toNat - 1) * timeBetweenLocks.toNat < 2 ^ 64 := by
  obtain ⟨firstUnlock, first, loop⟩ := stores.loop
  have length := length_newSchedules loop
  have positive := stores.positive
  constructor
  · intro releases
    have last : numberOfLocks.toNat - 1 < info.schedules.length := by omega
    rw [← releases.exact _ _ (List.getElem?_eq_getElem last)]
    exact UInt64.toNat_lt _
  · intro fits
    refine exactReleases_of_exact fun i s here => ?_
    have inside : i < numberOfLocks.toNat := by
      rw [← length]
      exact (List.getElem?_eq_some_iff.mp here).1
    have le : i * timeBetweenLocks.toNat ≤
        (numberOfLocks.toNat - 1) * timeBetweenLocks.toNat :=
      Nat.mul_le_mul_right _ (by omega)
    rw [release_newSchedules loop here, toNat_checkedAdd first]
    exact Nat.mod_eq_of_lt (by omega)

/-- A successful `lock` stores the release times that were asked for exactly when
the last of them is below `2 ^ 64`: the sum in its loop is not checked. -/
theorem release_times_exact_iff
    (run : Runs respond (lock context tokh cliffAmount cliffDurtime timeBetweenLocks
      numberOfLocks) w () w') :
    ∃ (info : VestInfo) (key : DictKey), w.storage.index = some info.id ∧
      makeLockKeyId info.id w.storage = .ok key ∧
      w'.storage.lockInfos.bind (fun dictionary => dictionary.lookup key) =
        some info.pack ∧
      info.schedules.length = numberOfLocks.toNat ∧
      (ExactReleases context.blocktime cliffDurtime timeBetweenLocks info.schedules ↔
        context.blocktime.toNat + cliffDurtime.toNat +
          (numberOfLocks.toNat - 1) * timeBetweenLocks.toNat < 2 ^ 64) := by
  obtain ⟨info, stores⟩ := exists_stores run
  obtain ⟨key, isKey, stored⟩ := stores.stored
  obtain ⟨firstUnlock, -, loop⟩ := stores.loop
  exact ⟨info, key, stores.id, isKey, stored, length_newSchedules loop,
    exactReleases_iff stores⟩

/-! ## Amounts -/

/-- The lock pays the deposit back in every run in which it is created: as long as
claims have paid less than the deposit, the lock is stored, and when all its release
times have passed, the recipient can claim and any claim pays all the rest. -/
def PaysBack (answer : TokenCall → E → E → Prop) (drift : E → E → Prop) (info : VestInfo)
    (deposit : Nat) : Prop :=
  ∀ (start now : UInt64) (first w : VestWorld E)
    (steps : List (Step Context Call Storage E Event)),
    Uninitialised first.storage → first.log = [] →
    VestHistory answer drift start first steps now w → FewLocks w.log →
    .locked info ∈ w.log → paidOutOf info.id w.log < deposit →
    ∃ lock, storedLock info.id w.storage = some lock ∧
      ∀ context : Context, (∀ s ∈ lock.schedules, s.release ≤ context.blocktime) →
        (∀ w', Runs (Quiet answer) (claim context info.id) w () w' →
          paidOutOf info.id w'.log = deposit) ∧
        (w.storage.paused = false → context.caller = lock.recipient →
          (∀ amount : U256, amount.toNat = deposit - paidOutOf info.id w.log →
            ∃ e, answer (.transfer lock.tokenHash (.account context.caller) amount)
              w.outside e) →
          ∃ w', Runs (Quiet answer) (claim context info.id) w () w')

variable {answer : TokenCall → E → E → Prop} {drift : E → E → Prop} {book : Book}

private theorem claim_pays_rest {lock : VestInfo} {lockId : UInt64}
    (represents : Represents w.storage book) (found : book.lock lockId = some lock)
    (allDue : ∀ s ∈ lock.schedules, s.release ≤ context.blocktime)
    (run : Runs (Quiet answer) (claim context lockId) w () w') :
    paidOutOf lockId w'.log = paidOutOf lockId w.log + remaining lock.schedules := by
  obtain ⟨lock', amount, u, storage', access, paid, -, ⟨e, -, rfl⟩, -, rfl⟩ :=
    runs_claim represents run
  cases found.symm.trans access.found
  rw [VestInfo.claimed, remaining_claimed_of_due allDue, Nat.add_zero] at paid
  simp [paidOutOf, payoutsOf, paid]

private theorem exists_claim_of_due {lock : VestInfo} {lockId : UInt64}
    (represents : Represents w.storage book) (sound : Sound book w.log)
    (listed : Listed book) (fits : Fits book) (found : book.lock lockId = some lock)
    (unpaused : w.storage.paused = false) (owned : context.caller = lock.recipient)
    (allDue : ∀ s ∈ lock.schedules, s.release ≤ context.blocktime)
    (unpaid : 0 < remaining lock.schedules)
    (answers : ∀ amount : U256, amount.toNat = remaining lock.schedules →
      ∃ e, answer (InteractErc20.transfer lock.tokenHash context.caller amount) w.outside
        e) :
    ∃ w', Runs (Quiet answer) (claim context lockId) w () w' := by
  obtain ⟨⟨amount, schedules⟩, loop⟩ :
      ∃ result, claimSchedules context.blocktime lock.schedules U256.zero = some result :=
    exists_claimSchedules (by simpa using fits lockId lock found)
  obtain ⟨rfl, sums⟩ := claimSchedules_eq_some loop
  rw [remaining_claimed_of_due allDue, U256.toNat_zero] at sums
  obtain ⟨e, answered⟩ := answers amount (by omega)
  rw [represents.paused] at unpaused
  exact exists_claim represents sound listed unpaused found owned.symm loop (by omega)
    answered

private theorem paysBack_of_remaining {deposit : Nat}
    (whole : remaining info.schedules = deposit) : PaysBack answer drift info deposit := by
  intro start now first w steps fresh empty history few locked unpaid
  rcases (vested_law.and listed_law).reached
      (fun _ _ _ _ => ⟨by simp, listed_empty⟩) fresh empty history few with
    ⟨-, noLog⟩ | ⟨book, represents, sound, vested, listed, fits⟩
  · simp [noLog] at locked
  · have total := (vested info locked).total
    rw [whole] at total
    cases found : book.lock info.id with
    | none =>
        rw [found, leftIn, Option.elim_none] at total
        omega
    | some lock =>
        rw [found, leftIn, Option.elim_some] at total
        refine ⟨lock, by rw [represents.storedLock_eq, found], fun context allDue => ⟨?_, ?_⟩⟩
        · intro w' run
          rw [claim_pays_rest represents found allDue run, total]
        · intro unpaused owned answers
          exact exists_claim_of_due represents sound listed fits found unpaused owned allDue
            (by omega) fun amount rest => answers amount (by omega)

/-- A successful `lock` pulls the amount and stores as many schedules as were asked
for.  They hold all of it but for the remainder of the division, so they hold all of
it, and the lock pays it back, exactly when the number divides the amount. -/
theorem deposit_scheduled_iff
    (run : Runs respond (lock context tokh cliffAmount cliffDurtime timeBetweenLocks
      numberOfLocks) w () w') :
    ∃ (info : VestInfo) (key : DictKey), w.storage.index = some info.id ∧
      makeLockKeyId info.id w.storage = .ok key ∧
      w'.storage.lockInfos.bind (fun dictionary => dictionary.lookup key) =
        some info.pack ∧
      (∃ selfHash u, w.storage.selfContractHash = some selfHash ∧
        respond (.transferFrom tokh (.account context.caller) (.contract selfHash) cliffAmount)
          w u) ∧
      info.schedules.length = numberOfLocks.toNat ∧
      remaining info.schedules + cliffAmount.toNat % numberOfLocks.toNat =
        cliffAmount.toNat ∧
      ((remaining info.schedules = cliffAmount.toNat ∧
        PaysBack answer drift info cliffAmount.toNat) ↔
        numberOfLocks.toNat ∣ cliffAmount.toNat) := by
  obtain ⟨info, stores⟩ := exists_stores run
  obtain ⟨key, isKey, stored⟩ := stores.stored
  obtain ⟨firstUnlock, -, loop⟩ := stores.loop
  have parts := remaining_newSchedules loop
  refine ⟨info, key, stores.id, isKey, stored, stores.pulled, length_newSchedules loop, parts,
    ?_⟩
  rw [Nat.dvd_iff_mod_eq_zero]
  constructor
  · intro given
    omega
  · intro divides
    have whole : remaining info.schedules = cliffAmount.toNat := by omega
    exact ⟨whole, paysBack_of_remaining whole⟩

end Creation

section Sample

open Sample
open Staking.Sample (staker tokenA units package)

/-- Twenty tokens in two parts. -/
def even : VestWorld Erc20Ledger :=
  after [(10, staker 1, .lock tokenA (units 20) 90 50 2)] 0 ready (by decide +kernel)

theorem runs_even : Runs (Quiet answer)
    ((Call.lock tokenA (units 20) 90 50 2).program ⟨staker 1, 10⟩) ready () even :=
  runs_after _

theorem release_times_exact_iff_even :
    ∃ (info : VestInfo) (key : DictKey), ready.storage.index = some info.id ∧
      makeLockKeyId info.id ready.storage = .ok key ∧
      even.storage.lockInfos.bind (fun dictionary => dictionary.lookup key) =
        some info.pack ∧
      info.schedules.length = (2 : UInt32).toNat ∧
      (ExactReleases 10 90 50 info.schedules ↔
        (10 : UInt64).toNat + (90 : UInt64).toNat +
          ((2 : UInt32).toNat - 1) * (50 : UInt64).toNat < 2 ^ 64) :=
  release_times_exact_iff runs_even

/-- Ten tokens in two parts, the second one after as many seconds as fit. -/
def wrapped : VestWorld Erc20Ledger :=
  after [(100, staker 1, .lock tokenA (units 10) 0 18446744073709551615 2)] 0 ready
    (by decide +kernel)

theorem runs_wrapped : Runs (Quiet answer)
    ((Call.lock tokenA (units 10) 0 18446744073709551615 2).program ⟨staker 1, 100⟩) ready ()
    wrapped :=
  runs_after _

/-- The second release time is before the time of the lock. -/
theorem release_wraps :
    ∃ w' info, Runs (Quiet answer)
        (lock { caller := staker 1, blocktime := 100 } tokenA (units 10) 0
          18446744073709551615 2) ready () w' ∧
      storedLock 0 w'.storage = some info ∧
      ¬ ExactReleases 100 0 18446744073709551615 info.schedules := by
  have stored : storedLock 0 wrapped.storage = some {
      id := 0
      lockTime := 100
      recipient := staker 1
      tokenHash := tokenA
      schedules := [{ release := 100, amount := units 5 },
        { release := 99, amount := units 5 }] } := by decide +kernel
  refine ⟨wrapped, _, runs_wrapped, stored, fun releases => ?_⟩
  exact absurd (releases.exact 1 _ rfl) (by decide)

theorem deposit_scheduled_iff_even :
    ∃ (info : VestInfo) (key : DictKey), ready.storage.index = some info.id ∧
      makeLockKeyId info.id ready.storage = .ok key ∧
      even.storage.lockInfos.bind (fun dictionary => dictionary.lookup key) =
        some info.pack ∧
      (∃ selfHash u, ready.storage.selfContractHash = some selfHash ∧
        Quiet answer
          (.transferFrom tokenA (.account (staker 1)) (.contract selfHash) (units 20)) ready u) ∧
      info.schedules.length = (2 : UInt32).toNat ∧
      remaining info.schedules + (units 20).toNat % (2 : UInt32).toNat =
        (units 20).toNat ∧
      ((remaining info.schedules = (units 20).toNat ∧
        PaysBack answer drift info (units 20).toNat) ↔
        (2 : UInt32).toNat ∣ (units 20).toNat) :=
  deposit_scheduled_iff runs_even

def uneven : VestWorld Erc20Ledger :=
  after [(10, staker 1, .lock tokenA (units 10) 90 50 3)] 0 ready (by decide +kernel)

theorem runs_uneven : Runs (Quiet answer)
    ((Call.lock tokenA (units 10) 90 50 3).program ⟨staker 1, 10⟩) ready () uneven :=
  runs_after _

/-- The three parts, claimed when all of them are due. -/
def emptied : VestWorld Erc20Ledger :=
  after [(200, staker 1, .claim 0)] 10 uneven (by decide +kernel)

theorem runs_emptied : Runs (Quiet answer)
    ((Call.claim 0).program ⟨staker 1, 200⟩) uneven () emptied :=
  runs_after _

/-- The parts are three each; the claim empties the lock and leaves a token behind. -/
theorem deposit_stranded :
    ∃ w' w'' info, Runs (Quiet answer)
        (lock { caller := staker 1, blocktime := 10 } tokenA (units 10) 90 50 3)
        ready () w' ∧
      storedLock 0 w'.storage = some info ∧
      ¬ (remaining info.schedules = (units 10).toNat) ∧
      (∀ s ∈ info.schedules, s.release ≤ 200) ∧
      Runs (Quiet answer) (claim { caller := staker 1, blocktime := 200 } 0) w' () w'' ∧
      paidOutOf 0 w''.log = 9 ∧ storedLock 0 w''.storage = none ∧
      w''.outside.balance tokenA (.contract package) = 1 := by
  have stored : storedLock 0 uneven.storage = some {
      id := 0
      lockTime := 10
      recipient := staker 1
      tokenHash := tokenA
      schedules := [{ release := 100, amount := units 3 },
        { release := 150, amount := units 3 }, { release := 200, amount := units 3 }] } := by
    decide +kernel
  have left : paidOutOf 0 emptied.log = 9 ∧ storedLock 0 emptied.storage = none ∧
      emptied.outside.balance tokenA (.contract package) = 1 := by
    decide +kernel
  exact ⟨uneven, emptied, _, runs_uneven, stored, by decide, by decide, runs_emptied, left⟩

end Sample

end CasperContracts.Vesting
