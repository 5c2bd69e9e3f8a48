import CasperContracts.Vesting.Ids
import CasperContracts.Vesting.Ownership
import CasperContracts.Vesting.Payouts
import CasperContracts.Vesting.Reentrancy

/-!
# The locks in a token that does not call back

When no `lock` is entered inside another one, the ids are in order at every
request, and what the other tokens make of the contract while they are called
does not reach the locks in `T`: each of them pays every schedule once and
never early, stays in the list of its recipient and of nobody else, and can be
claimed and transferred by its recipient only.
-/

namespace CasperContracts.Vesting

open CasperContracts.Basis Host Prog

/-! ## Counting ids -/

section Counts

variable (book : Book) (account holder : AccountHash) (lockId other : UInt64)

theorem count_pushId :
    ((book.pushId account lockId).idsOf holder).count other =
      (book.idsOf holder).count other + if holder = account ∧ lockId = other then 1 else 0 := by
  rw [Book.pushId_idsOf]
  by_cases mine : holder = account
  · simp only [mine, if_true, true_and, List.count_append, List.count_singleton, beq_iff_eq]
  · simp [mine]

variable {book account lockId} {idx : Nat}

theorem count_dropId (listed : (book.idsOf account).idxOf? lockId = some idx) :
    ((book.dropId account idx).idsOf holder).count other +
      (if holder = account ∧ lockId = other then 1 else 0) =
      (book.idsOf holder).count other := by
  rw [Book.dropId_idsOf]
  by_cases mine : holder = account
  · subst mine
    have counts := (perm_of_idxOf? listed).count_eq other
    simp only [List.count_cons, beq_iff_eq] at counts
    simp only [if_true, true_and, counts]
  · simp [mine]

variable {holder other}

theorem mem_pushId (member : other ∈ (book.pushId account lockId).idsOf holder) :
    other ∈ book.idsOf holder ∨ other = lockId := by
  rw [Book.pushId_idsOf] at member
  split at member
  · simpa using member
  · exact .inl member

theorem mem_dropId (listed : (book.idsOf account).idxOf? lockId = some idx)
    (member : other ∈ (book.dropId account idx).idsOf holder) : other ∈ book.idsOf holder := by
  have counts := count_dropId holder other listed
  have positive := List.count_pos_iff.mpr member
  apply List.count_pos_iff.mp
  omega

end Counts

/-! ## What holds of the locks -/

theorem mem_locksIn {info : VestInfo} {log : List Event} :
    info ∈ locksIn log ↔ .locked info ∈ log := by
  rw [locksIn, List.mem_filterMap]
  constructor
  · intro given
    obtain ⟨event, member, isLocked⟩ := given
    cases event with
    | locked other =>
        cases isLocked
        exact member
    | claimed payout => cases isLocked
  · intro member
    exact ⟨_, member, rfl⟩

/-- The ids are in order, every live lock goes back to one that was created in the same
token, and the locks in `T` have paid what they should and are listed at their
recipients. -/
structure Honest (T : ContractHash) (book : Book) (log : List Event) : Prop where
  sound : Sound book log
  unique : ∀ info info', .locked info ∈ log → .locked info' ∈ log → info.id = info'.id →
    info = info'
  known : ∀ lockId lock, book.lock lockId = some lock →
    ∃ info, .locked info ∈ log ∧ info.id = lockId ∧ info.tokenHash = lock.tokenHash
  vested : ∀ info, .locked info ∈ log → info.tokenHash = T → Vested info book log
  fits : Fits book
  below : ∀ account, ∀ lockId ∈ book.idsOf account, lockId < book.index
  listed : ∀ lockId lock, book.lock lockId = some lock → lock.tokenHash = T →
    ∀ account, (book.idsOf account).count lockId = if lock.recipient = account then 1 else 0

section Change

variable {T : ContractHash} {context : Context} {call : Call} {book found book' : Book}
variable {requests : List TokenCall} {events log log' : List Event} {lockId : UInt64}
variable {info lock : VestInfo}

theorem honest_empty {admin : AccountHash} {paused : Bool} {selfHash : ContractPackageHash} :
    Honest T (.empty admin paused selfHash) [] where
  sound := sound_empty
  unique := by simp
  known := by simp [Book.lock, Book.empty]
  vested := by simp
  fits := listed_empty.2
  below := by simp [Book.idsOf, Book.empty]
  listed := by simp [Book.lock, Book.empty]

theorem Honest.setPaused (honest : Honest T book log) (paused : Bool) :
    Honest T { book with paused } log where
  sound := ⟨honest.sound.index, honest.sound.own, honest.sound.below, honest.sound.logged⟩
  unique := honest.unique
  known := honest.known
  vested := fun info locked inT =>
    have vested := honest.vested info locked inT
    ⟨vested.total, vested.settled, vested.released.stored, vested.released.later⟩
  fits := honest.fits
  below := honest.below
  listed := honest.listed

theorem Honest.few (honest : Honest T book log) : FewLocks log := by
  rw [FewLocks, ← honest.sound.index]
  exact book.index.toNat_lt

private theorem Touch.token {lock' : VestInfo} (touch : Touch context lockId lock (some lock')
    requests events) : lock'.tokenHash = lock.tokenHash := by
  rcases touch.left_cases with ⟨_, _, _, -, -, rfl⟩ | ⟨_, rfl⟩ | rfl
  · rfl
  · rfl
  · rfl

private theorem locked_of_change (change : Change context book call requests events book')
    (locked : .locked info ∈ events) :
    events = [.locked info] ∧ info.id = book.index := by
  rcases change.index_cases with ⟨none, -⟩ | ⟨created, rfl, id, -⟩
  · rw [← mem_locksIn, none] at locked
    cases locked
  · cases List.mem_singleton.mp locked
    exact ⟨rfl, id⟩

private theorem unique_change (honest : Honest T book log)
    (change : Change context book call requests events book') :
    ∀ info info', .locked info ∈ log ++ events → .locked info' ∈ log ++ events →
      info.id = info'.id → info = info' := by
  intro info info' locked locked' same
  have fresh : ∀ old, .locked old ∈ log → old.id ≠ book.index :=
    fun old member => UInt64.ne_of_lt (honest.sound.logged _ member)
  rcases List.mem_append.mp locked with old | new
  · rcases List.mem_append.mp locked' with old' | new'
    · exact honest.unique info info' old old' same
    · exact absurd (same.trans (locked_of_change change new').2) (fresh info old)
  · rcases List.mem_append.mp locked' with old' | new'
    · exact absurd (same.symm.trans (locked_of_change change new).2) (fresh info' old')
    · rw [(locked_of_change change new).1] at new'
      cases List.mem_singleton.mp new'
      rfl

private theorem known_change (honest : Honest T book log)
    (change : Change context book call requests events book')
    (isLock : book'.lock lockId = some lock) :
    ∃ info, .locked info ∈ log ++ events ∧ info.id = lockId ∧
      info.tokenHash = lock.tokenHash := by
  have earlier {before : VestInfo} (isBefore : book.lock lockId = some before)
      (token : before.tokenHash = lock.tokenHash) :
      ∃ info, .locked info ∈ log ++ events ∧ info.id = lockId ∧
        info.tokenHash = lock.tokenHash := by
    obtain ⟨info, member, id, same⟩ := honest.known lockId before isBefore
    exact ⟨info, List.mem_append_left _ member, id, same.trans token⟩
  rw [Book.lock_eq_some] at isLock
  cases change.entry lockId with
  | untouched same => exact earlier (Book.lock_eq_some.mpr (same ▸ isLock)) rfl
  | @created info next id fits stored logs =>
      cases stored.symm.trans isLock
      exact ⟨lock, by simp [logs], id, rfl⟩
  | touched foundBefore owned stored touch =>
      cases stored.symm.trans isLock
      exact earlier foundBefore touch.token.symm

private theorem vested_change (honest : Honest T book log)
    (change : Change context book call requests events book')
    (locked : .locked info ∈ log ++ events) (inT : info.tokenHash = T) :
    Vested info book' (log ++ events) := by
  rcases List.mem_append.mp locked with earlier | new
  · exact (honest.vested info earlier inT).change honest.sound change
  · cases change.entry info.id with
    | untouched _ others => exact absurd rfl (others _ new)
    | created next _ _ stored logs =>
        subst logs
        cases List.mem_singleton.mp new
        exact vested_of_created honest.sound next stored
    | touched _ _ _ touch => cases touch <;> simp at new

private theorem index_le (honest : Honest T book log) (few : FewLocks (log ++ events))
    (change : Change context book call requests events book') : book.index ≤ book'.index := by
  rw [UInt64.le_iff_toNat_le, honest.sound.index_eq few change]
  exact Nat.le_add_right _ _

private theorem below_change (honest : Honest T book log) (few : FewLocks (log ++ events))
    (change : Change context book call requests events book') :
    ∀ account, ∀ lockId ∈ book'.idsOf account, lockId < book'.index := by
  intro account id member
  have le := index_le honest few change
  have earlier {holder : AccountHash} (listed : id ∈ book.idsOf holder) : id < book'.index :=
    UInt64.lt_of_lt_of_le (honest.below holder id listed) le
  cases change with
  | @lock _ _ _ _ _ info unpaused new =>
      have pushed : id ∈ ((book.putEntry book.index (some info)).pushId context.caller
          book.index).idsOf account := member
      rcases mem_pushId pushed with old | isNext
      · exact earlier old
      · have counted := honest.sound.index_eq few (.lock unpaused new)
        change (book.index + 1).toNat = book.index.toNat + 1 at counted
        rw [UInt64.lt_iff_toNat_lt, isNext]
        change book.index.toNat < (book.index + 1).toNat
        omega
  | extendLock access here later => exact earlier member
  | @transferLock lockId newOwner lock idx access transferred =>
      have pushed : id ∈ (((book.dropId context.caller idx).putEntry lockId (some { lock with
          recipient := newOwner })).pushId newOwner lock.id).idsOf account := member
      rcases mem_pushId pushed with old | isLock
      · exact earlier (mem_dropId transferred old)
      · rw [isLock, honest.sound.own lockId lock access.found]
        exact honest.sound.found_below access.found
  | @claim lockId lock amount _ access paid nonzero stored =>
      cases stored with
      | part some => exact earlier member
      | @finished idx nothing taken =>
          have dropped : id ∈ ((book.putEntry lockId none).dropId context.caller idx).idsOf
              account := member
          exact earlier (mem_dropId taken dropped)
  | setAdmin admin => exact earlier member
  | setPauseContract admin => exact earlier member

private theorem listed_putEntry (honest : Honest T book log) (lockId : UInt64)
    (entry : Option VestInfo)
    (own : ∀ lock, entry = some lock → lock.tokenHash = T →
      ∀ account, (book'.idsOf account).count lockId = if lock.recipient = account then 1 else 0)
    (others : ∀ other ≠ lockId, ∀ account,
      (book'.idsOf account).count other = (book.idsOf account).count other)
    (stored : ∀ other, book'.lock other = if other = lockId then entry else book.lock other) :
    ∀ other lock, book'.lock other = some lock → lock.tokenHash = T →
      ∀ account, (book'.idsOf account).count other =
        if lock.recipient = account then 1 else 0 := by
  intro other lock isLock inT account
  rw [stored] at isLock
  split at isLock
  · rename_i same
    subst same
    exact own lock isLock inT account
  · rename_i different
    rw [others other different]
    exact honest.listed other lock isLock inT account

private theorem count_index (honest : Honest T book log) (account : AccountHash) :
    (book.idsOf account).count book.index = 0 := by
  rw [List.count_eq_zero]
  intro member
  exact absurd (honest.below account _ member) (UInt64.lt_irrefl _)

private theorem listed_change (honest : Honest T book log)
    (change : Change context book call requests events book') :
    ∀ lockId lock, book'.lock lockId = some lock → lock.tokenHash = T →
      ∀ account, (book'.idsOf account).count lockId =
        if lock.recipient = account then 1 else 0 := by
  cases change with
  | @lock _ _ _ _ _ info unpaused new =>
      have counts (account : AccountHash) (id : UInt64) :
          (((book.putEntry book.index (some info)).pushId context.caller
            book.index).idsOf account).count id = (book.idsOf account).count id +
            if account = context.caller ∧ book.index = id then 1 else 0 :=
        count_pushId _ _ _ _ _
      refine listed_putEntry honest book.index (some info) ?_ ?_
        (fun other => Book.putEntry_lock book book.index other (some info))
      · intro lock isInfo inT account
        cases isInfo
        rw [new.recipient]
        refine (counts account book.index).trans ?_
        simp [count_index honest, eq_comm]
      · intro other different account
        refine (counts account other).trans ?_
        simp [Ne.symm different]
  | @extendLock lockId index newRelease lock schedule access here later =>
      refine listed_putEntry honest lockId _ ?_ (fun _ _ _ => rfl)
        (fun other => Book.putEntry_lock book lockId other _)
      intro lock' isLock inT account
      cases isLock
      exact honest.listed lockId lock access.found inT account
  | @transferLock lockId newOwner lock idx access transferred =>
      obtain rfl : lock.id = lockId := honest.sound.own lockId lock access.found
      have counts (account : AccountHash) (id : UInt64) :
          ((((book.dropId context.caller idx).putEntry lock.id (some { lock with
            recipient := newOwner })).pushId newOwner lock.id).idsOf account).count id =
            ((book.dropId context.caller idx).idsOf account).count id +
              if account = newOwner ∧ lock.id = id then 1 else 0 :=
        count_pushId _ _ _ _ _
      have dropped (account : AccountHash) (id : UInt64) := count_dropId account id transferred
      refine listed_putEntry honest lock.id _ ?_ ?_
        (fun other => Book.putEntry_lock (book.dropId context.caller idx) lock.id other _)
      · intro lock' isLock inT account
        cases isLock
        have before := honest.listed lock.id lock access.found inT account
        have drop := dropped account lock.id
        rw [counts]
        simp only [access.owned, and_true, eq_comm] at before drop ⊢
        omega
      · intro other different account
        have drop := dropped account other
        rw [counts]
        simp only [Ne.symm different, and_false, if_false, Nat.add_zero] at drop ⊢
        exact drop
  | @claim lockId lock amount _ access paid nonzero stored =>
      cases stored with
      | part some =>
          refine listed_putEntry honest lockId _ ?_ (fun _ _ _ => rfl)
            (fun other => Book.putEntry_lock book lockId other _)
          intro lock' isLock inT account
          cases isLock
          exact honest.listed lockId lock access.found inT account
      | @finished idx nothing taken =>
          refine listed_putEntry honest lockId none (by simp) ?_
            (fun other => Book.putEntry_lock book lockId other none)
          intro other different account
          have drop : (((book.putEntry lockId none).dropId context.caller idx).idsOf
              account).count other + _ = (book.idsOf account).count other :=
            count_dropId account other taken
          simp only [Ne.symm different, and_false, if_false, Nat.add_zero] at drop
          exact drop
  | setAdmin admin => exact honest.listed
  | setPauseContract admin => exact honest.listed

theorem Honest.change (honest : Honest T book log) (few : FewLocks (log ++ events))
    (change : Change context book call requests events book') :
    Honest T book' (log ++ events) where
  sound := honest.sound.change few change
  unique := unique_change honest change
  known := fun _ _ => known_change honest change
  vested := fun _ => vested_change honest change
  fits := honest.fits.change change
  below := below_change honest few change
  listed := listed_change honest change

end Change

/-! ## Calls that go on late -/

/-- No `lock` is entered while another one is in progress, and there are ids left. -/
def loneLock {E : Type} (stack : List Call) (w : VestWorld E) (entry : Call) : Prop :=
  entry.creates →
    (∀ opened ∈ stack, ¬ opened.creates) ∧ (locksIn w.log).length + 1 < 2 ^ 64

instance {E : Type} (stack : List Call) (w : VestWorld E) (entry : Call) :
    Decidable (loneLock stack w entry) :=
  inferInstanceAs (Decidable (entry.creates → _))

/-- What becomes of the contract while the calls of `stack` wait: no ids are handed out
inside a `lock`, to the caller in particular, and the locks in `T` of other accounts stay
as they are. -/
structure Apart (T : ContractHash) (context : Context) (stack : List Call) (book : Book)
    (log : List Event) (book' : Book) (log' : List Event) : Prop where
  selfHash : book'.selfHash = book.selfHash
  index : book.index ≤ book'.index
  idle : (∃ opened ∈ stack, opened.creates) → book'.index = book.index
  unlisted : (∃ opened ∈ stack, opened.creates) → book.idsOf context.caller = [] →
    book'.idsOf context.caller = []
  others : ∃ more, log' = log ++ more ∧
    ∀ lockId lock, book.lock lockId = some lock → lock.tokenHash = T →
      lock.recipient ≠ context.caller →
        book'.entries.lookup lockId = book.entries.lookup lockId ∧
        ∀ event ∈ more, event.lockId ≠ lockId

section Late

variable {T : ContractHash} {context : Context} {stack : List Call} {call : Call}
variable {book book' book'' found : Book} {log log' log'' events : List Event}
variable {requests : List TokenCall} {lockId : UInt64} {lock left info : VestInfo}

theorem Apart.refl : Apart T context stack book log book log where
  selfHash := rfl
  index := UInt64.le_refl _
  idle := fun _ => rfl
  unlisted := fun _ none => none
  others := ⟨[], by simp, fun _ _ _ _ _ => ⟨rfl, by simp⟩⟩

theorem Apart.trans (first : Apart T context stack book log book' log')
    (second : Apart T context stack book' log' book'' log'') :
    Apart T context stack book log book'' log'' where
  selfHash := second.selfHash.trans first.selfHash
  index := UInt64.le_trans first.index second.index
  idle := fun busy => (second.idle busy).trans (first.idle busy)
  unlisted := fun busy none => second.unlisted busy (first.unlisted busy none)
  others := by
    obtain ⟨more, rfl, others⟩ := first.others
    obtain ⟨more', rfl, others'⟩ := second.others
    refine ⟨more ++ more', List.append_assoc _ _ _, fun lockId lock isLock inT foreign => ?_⟩
    obtain ⟨same, quiet⟩ := others lockId lock isLock inT foreign
    have isLock' : book'.lock lockId = some lock := by
      rw [Book.lock_eq_some, same]
      exact Book.lock_eq_some.mp isLock
    obtain ⟨same', quiet'⟩ := others' lockId lock isLock' inT foreign
    refine ⟨same'.trans same, fun event member => ?_⟩
    rcases List.mem_append.mp member with earlier | later
    · exact quiet event earlier
    · exact quiet' event later

/-- Fewer calls in progress leave more to others. -/
theorem Apart.pop (apart : Apart T context (call :: stack) book log book' log') :
    Apart T context stack book log book' log' where
  selfHash := apart.selfHash
  index := apart.index
  idle := by
    intro busy
    obtain ⟨opened, member, creates⟩ := busy
    exact apart.idle ⟨opened, List.mem_cons_of_mem _ member, creates⟩
  unlisted := by
    intro busy
    obtain ⟨opened, member, creates⟩ := busy
    exact apart.unlisted ⟨opened, List.mem_cons_of_mem _ member, creates⟩
  others := apart.others

private theorem Vested.frame (vested : Vested info found log)
    (same : book'.entries.lookup info.id = found.entries.lookup info.id)
    (others : ∀ event ∈ events, event.lockId ≠ info.id) :
    Vested info book' (log ++ events) := by
  have sameLock : book'.lock info.id = found.lock info.id := congrArg Option.join same
  have samePayouts : payoutsOf info.id (log ++ events) = payoutsOf info.id log := by
    rw [payoutsOf_append, payoutsOf_eq_nil others, List.append_nil]
  constructor
  · rw [paidOutOf, samePayouts, sameLock]
    exact vested.total
  · intro index s here
    rw [paymentsOf, samePayouts, sameLock]
    exact vested.settled index s here
  · constructor
    · rw [same]
      exact vested.released.stored
    · intro lock isLock
      exact vested.released.later lock (sameLock ▸ isLock)

private theorem Stored.lock_eq {caller : AccountHash} {lock' : VestInfo}
    (stored : Stored found caller lockId left book') (isLock : book'.lock lockId = some lock') :
    lock' = left := by
  rw [Book.lock_eq_some, stored.lookup, if_pos rfl, Option.some.injEq] at isLock
  split at isLock
  · cases isLock
  · exact (Option.some.inj isLock).symm

private theorem Stored.lock_other {caller : AccountHash} {other : UInt64}
    (stored : Stored found caller lockId left book') (different : other ≠ lockId) :
    book'.lock other = found.lock other := by
  rw [Book.lock, stored.lookup, if_neg different]
  rfl

private theorem Stored.index_eq {caller : AccountHash}
    (stored : Stored found caller lockId left book') : book'.index = found.index := by
  cases stored <;> rfl

/-- A caller that has no ids cannot finish a claim, -/
private theorem Stored.unlisted {caller : AccountHash}
    (stored : Stored found caller lockId left book') (none : found.idsOf caller = []) :
    book'.idsOf caller = [] := by
  cases stored with
  | part some => exact none
  | finished nothing listed =>
      rw [none] at listed
      cases listed

/-- nor get ids from any other call than a lock. -/
private theorem Change.unlisted (change : Change context book call requests events book')
    (creates : ¬ call.creates) (none : book.idsOf context.caller = []) :
    book'.idsOf context.caller = [] := by
  cases change with
  | lock unpaused new => exact absurd trivial creates
  | transferLock access listed =>
      rw [none] at listed
      cases listed
  | claim access paid nonzero stored => exact stored.unlisted none
  | extendLock access here later => exact none
  | setAdmin admin => exact none
  | setPauseContract admin => exact none

private theorem Sound.storeBack {payout : Payout} {caller : AccountHash}
    (sound : Sound found log) (claimed : payout.lockId = lockId)
    (valid : lockId < found.index) (own : left.id = lockId)
    (stored : Stored found caller lockId left book') :
    Sound book' (log ++ [.claimed payout]) := by
  constructor
  · rw [stored.index_eq, locksIn_append, sound.index]
    simp [locksIn]
  · intro other lock isLock
    by_cases same : other = lockId
    · subst same
      rw [stored.lock_eq isLock, own]
    · exact sound.own other lock (stored.lock_other same ▸ isLock)
  · intro other entry isEntry
    rw [stored.index_eq]
    rw [stored.lookup] at isEntry
    split at isEntry
    · rename_i same
      rw [same]
      exact valid
    · exact sound.below other entry isEntry
  · intro event member
    rw [stored.index_eq]
    rcases List.mem_append.mp member with earlier | last
    · exact sound.logged event earlier
    · rw [List.mem_singleton.mp last]
      change payout.lockId < found.index
      rw [claimed]
      exact valid

private theorem Honest.id_ne (honest : Honest T found log) (created : .locked info ∈ log)
    (id : info.id = lockId) (other : info.tokenHash ≠ T) {lockId' : UInt64} {lock' : VestInfo}
    (isLock : found.lock lockId' = some lock') (inT : lock'.tokenHash = T) :
    lockId' ≠ lockId := by
  intro same
  obtain ⟨info', created', id', token'⟩ := honest.known lockId' lock' isLock
  cases honest.unique info info' created created' (by rw [id, id', same])
  exact other (token'.trans inT)

/-- A lock in another token is stored back, whatever its entry has become. -/
private theorem Honest.storeBack (honest : Honest T found log) {payout : Payout}
    (claimed : payout.lockId = lockId) (valid : lockId < found.index)
    (own : left.id = lockId) (other : left.tokenHash ≠ T)
    (fits : remaining left.schedules < 2 ^ 256)
    (created : .locked info ∈ log) (id : info.id = lockId)
    (token : info.tokenHash = left.tokenHash)
    (stored : Stored found context.caller lockId left book') :
    Honest T book' (log ++ [.claimed payout]) := by
  have apart : ∀ info', .locked info' ∈ log → info'.tokenHash = T → info'.id ≠ lockId := by
    intro info' created' inT same
    cases honest.unique info info' created created' (id.trans same.symm)
    exact other (token.symm.trans inT)
  have older : ∀ info', .locked info' ∈ log ++ [.claimed payout] → .locked info' ∈ log := by
    simp
  constructor
  · exact honest.sound.storeBack claimed valid own stored
  · intro info' info'' created' created''
    exact honest.unique info' info'' (older _ created') (older _ created'')
  · intro other' lock' isLock
    by_cases same : other' = lockId
    · subst same
      rw [stored.lock_eq isLock]
      exact ⟨info, List.mem_append_left _ created, id, token⟩
    · obtain ⟨info', created', id', token'⟩ :=
        honest.known other' lock' (stored.lock_other same ▸ isLock)
      exact ⟨info', List.mem_append_left _ created', id', token'⟩
  · intro info' created' inT
    have different := apart info' (older _ created') inT
    refine (honest.vested info' (older _ created') inT).frame ?_ ?_
    · rw [stored.lookup, if_neg different]
    · intro event member same
      rw [List.mem_singleton.mp member] at same
      exact different (same.symm.trans claimed)
  · intro other' lock' isLock
    by_cases same : other' = lockId
    · subst same
      rw [stored.lock_eq isLock]
      exact fits
    · exact honest.fits other' lock' (stored.lock_other same ▸ isLock)
  · intro account other' member
    rw [stored.index_eq]
    cases stored with
    | part some => exact honest.below account other' member
    | @finished idx nothing taken =>
        have dropped : other' ∈ ((found.putEntry lockId none).dropId context.caller idx).idsOf
            account := member
        exact honest.below account other' (mem_dropId taken dropped)
  · intro other' lock' isLock inT account
    have different : other' ≠ lockId := by
      intro same
      subst same
      exact other (stored.lock_eq isLock ▸ inT)
    rw [stored.lock_other different] at isLock
    rw [← honest.listed other' lock' isLock inT account]
    cases stored with
    | part some => rfl
    | @finished idx nothing taken =>
        have drop : (((found.putEntry lockId none).dropId context.caller idx).idsOf
            account).count other' + _ = (found.idsOf account).count other' :=
          count_dropId account other' taken
        simp only [Ne.symm different, and_false, if_false, Nat.add_zero] at drop
        exact drop

/-- A new lock is created late as it would have been at once. -/
private theorem Honest.lockLate (honest : Honest T found log) {tokh : ContractHash}
    {cliffAmount : U256} {cliffDurtime timeBetweenLocks : UInt64} {numberOfLocks : UInt32}
    (new : NewLock context found.index tokh cliffAmount cliffDurtime timeBetweenLocks
      numberOfLocks info)
    (few : FewLocks (log ++ [.locked info]))
    (alone : ∀ opened ∈ stack, ¬ opened.creates) :
    Honest T { (found.putEntry found.index (some info)).pushId context.caller found.index with
        index := found.index + 1 } (log ++ [.locked info]) ∧
      Apart T context stack found log
        { (found.putEntry found.index (some info)).pushId context.caller found.index with
          index := found.index + 1 } (log ++ [.locked info]) := by
  -- the contract may have been paused in between, which `lock` does not look at again
  have unpaused : Honest T { found with paused := false } log := honest.setPaused false
  have created : Change context { found with paused := false }
      (.lock tokh cliffAmount cliffDurtime timeBetweenLocks numberOfLocks) _ _ _ :=
    .lock rfl new
  have le : found.index ≤ found.index + 1 := index_le unpaused few created
  refine ⟨(unpaused.change few created).setPaused found.paused, rfl, le, ?_, ?_,
    [.locked info], rfl, ?_⟩
  · intro busy
    obtain ⟨opened, member, creates⟩ := busy
    exact absurd creates (alone opened member)
  · intro busy
    obtain ⟨opened, member, creates⟩ := busy
    exact absurd creates (alone opened member)
  · intro lockId lock isLock _ _
    have different : lockId ≠ found.index :=
      UInt64.ne_of_lt (honest.sound.found_below isLock)
    constructor
    · refine (Book.putEntry_lookup found found.index lockId (some info)).trans ?_
      rw [if_neg different]
    · intro event member same
      rw [List.mem_singleton.mp member] at same
      exact different (same.symm.trans new.id)

private theorem Honest.late (before : Honest T book log) (honest : Honest T found log')
    (guarded : call.creates →
      (∀ opened ∈ stack, ¬ opened.creates) ∧ (locksIn log).length + 1 < 2 ^ 64)
    (apart : Apart T context (call :: stack) book log found log')
    (late : Late T context book call found events book') :
    Honest T book' (log' ++ events) ∧
      Apart T context stack found log' book' (log' ++ events) := by
  cases late with
  | @lock tokh _ _ _ _ info _ known other new unlisted =>
      obtain ⟨alone, few⟩ := guarded trivial
      have index : found.index = book.index := apart.idle ⟨_, List.mem_cons_self, trivial⟩
      have pushes : (found.putEntry book.index (some info)).enlist known context.caller
          book.index = (found.putEntry book.index (some info)).pushId context.caller
            book.index :=
        Book.enlist_eq _ _ _ fun unknown =>
          apart.unlisted ⟨_, List.mem_cons_self, trivial⟩ (unlisted unknown)
      rw [pushes]
      rw [← index] at new ⊢
      refine honest.lockLate new ?_ alone
      rw [← before.sound.index, ← index, honest.sound.index] at few
      rw [FewLocks, locksIn_append, List.length_append]
      exact few
  | @claim lockId lock amount _ _ access other stored =>
      obtain ⟨info, created, id, token⟩ := before.known lockId lock access.found
      obtain ⟨more, rfl, -⟩ := apart.others
      have createdToo : .locked info ∈ log ++ more := List.mem_append_left _ created
      have valid : lockId < found.index :=
        UInt64.lt_of_lt_of_le (before.sound.found_below access.found) apart.index
      have own : (lock.claimed context.blocktime).id = lockId :=
        before.sound.own lockId lock access.found
      have fits : remaining (lock.claimed context.blocktime).schedules < 2 ^ 256 :=
        lt_of_le_of_lt remaining_claimed_le (before.fits lockId lock access.found)
      refine ⟨honest.storeBack rfl valid own other fits createdToo id token stored, ?_, ?_, ?_,
        ?_, [_], rfl, ?_⟩
      · cases stored <;> rfl
      · rw [stored.index_eq]
        exact UInt64.le_refl _
      · exact fun _ => stored.index_eq
      · exact fun _ => stored.unlisted
      · intro lockId' lock' isLock inT _
        have different : lockId' ≠ lockId :=
          honest.id_ne createdToo id (token ▸ other) isLock inT
        constructor
        · rw [stored.lookup, if_neg different]
        · intro event member same
          rw [List.mem_singleton.mp member] at same
          exact different same.symm

private theorem Honest.apart (honest : Honest T book log)
    (guarded : call.creates →
      (∀ opened ∈ stack, ¬ opened.creates) ∧ (locksIn log).length + 1 < 2 ^ 64)
    (change : Change context book call requests events book') :
    FewLocks (log ++ events) ∧ Apart T context stack book log book' (log ++ events) := by
  have few : FewLocks (log ++ events) := by
    rw [FewLocks, locksIn_append, List.length_append]
    cases change with
    | lock unpaused new => exact (guarded trivial).2
    | _ => exact honest.few
  refine ⟨few, ?_, index_le honest few change, ?_, ?_, events, rfl, ?_⟩
  · cases change with
    | claim access paid nonzero stored => cases stored <;> rfl
    | _ => rfl
  · intro busy
    obtain ⟨opened, member, creates⟩ := busy
    cases change with
    | lock unpaused new => exact absurd creates ((guarded trivial).1 opened member)
    | claim access paid nonzero stored => exact stored.index_eq
    | _ => rfl
  · intro busy
    obtain ⟨opened, member, creates⟩ := busy
    exact change.unlisted fun allocates => (guarded allocates).1 opened member creates
  · exact fun lockId lock isLock _ foreign =>
      change.untouched honest.sound isLock foreign

end Late

/-! ## Deploys -/

section Deploys

variable {E : Type} {T : ContractHash} {answer : TokenCall → E → E → Prop}
variable {drift : E → E → Prop} {start now : UInt64} {first w w' : VestWorld E}
variable {admin : AccountHash} {paused : Bool} {package : ContractPackageHash}
variable {info : VestInfo} {context : Context}

private theorem honest_tolerates :
    Tolerates (fun book (_ : E) log => Honest T book log) answer drift (Hostile T) where
  drifting := fun honest _ => honest
  answered := fun _ honest _ => honest

private theorem honest_custody (context : Context) :
    Custody Represents (fun book (_ : E) log => Honest T book log) (Apart T context)
      (Call.program context) answer drift (Hostile T) loneLock where
  ledger := honest_tolerates
  refl := .refl
  trans := .trans
  entry := by
    intro stack call u v respond permitted answers run book represents honest
    rcases reentered_cases Apart.selfHash represents honest answers run with
      ⟨book', requests, events, change, represents', log, -⟩ |
      ⟨found, log, events, book', honestFound, apart, late, represents', extended⟩
    · obtain ⟨few, apart⟩ := honest.apart permitted change
      rw [log]
      exact ⟨book', represents', honest.change few change, apart⟩
    · obtain ⟨honest', onward⟩ := honest.late honestFound permitted apart late
      rw [extended]
      exact ⟨book', represents', honest', apart.pop.trans onward⟩

private theorem Honest.reached (initialised : first.storage = .initialised admin paused package)
    (empty : first.log = [])
    (deploys : VestDeploys T answer drift (fun _ => loneLock) start first now w) :
    ∃ book, Represents w.storage book ∧ Honest T book w.log := by
  have represents : Represents first.storage (.empty admin paused package) := by
    rw [initialised]
    exact represents_initialised admin paused package
  have honest : Honest T (.empty admin paused package) first.log := by
    rw [empty]
    exact honest_empty
  exact deploys.held honest_tolerates honest_custody represents honest

/-- However the other tokens call back, as long as no `lock` is made inside another one: a
lock in `T` and what it has paid add up to what it was created with, every schedule is
unpaid or has been paid once, in full and when it was due, and release times never move
to earlier. -/
theorem schedules_paid_once_reentrant
    (initialised : first.storage = .initialised admin paused package) (empty : first.log = [])
    (deploys : VestDeploys T answer drift (fun _ => loneLock) start first now w)
    (locked : .locked info ∈ w.log) (inT : info.tokenHash = T) :
    paidOutOf info.id w.log + leftIn (storedLock info.id w.storage) =
      remaining info.schedules ∧
    (∀ index s, info.schedules[index]? = some s →
      Settled s.amount.toNat (paymentsOf info.id index w.log)
        (leftAt index (storedLock info.id w.storage))) ∧
    ∀ lock, storedLock info.id w.storage = some lock → Later info.schedules lock.schedules := by
  obtain ⟨book, represents, honest⟩ := Honest.reached initialised empty deploys
  have vested := honest.vested info locked inT
  rw [represents.storedLock_eq]
  exact ⟨vested.total, vested.settled, vested.released.later⟩

/-- In the same runs: a live lock in `T` is once in the list of its recipient and in no
other list, so that its recipient can transfer it, and a claim fails only for want of
something due. -/
theorem ids_exact_reentrant
    (initialised : first.storage = .initialised admin paused package) (empty : first.log = [])
    (deploys : VestDeploys T answer drift (fun _ => loneLock) start first now w)
    {lockId : UInt64} {lock : VestInfo} (stored : storedLock lockId w.storage = some lock)
    (inT : lock.tokenHash = T) :
    (∀ account, (storedIds account w.storage).count lockId =
      if lock.recipient = account then 1 else 0) ∧
    (w.storage.paused = false → ∀ context : Context, context.caller = lock.recipient →
      (∀ newOwner, ∃ w',
        Runs (Quiet answer) (transferLock context lockId newOwner) w () w') ∧
      ∀ failure, Fails (Quiet answer) (claim context lockId) w failure →
        failure = .revert (.user 9)) := by
  obtain ⟨book, represents, honest⟩ := Honest.reached initialised empty deploys
  rw [represents.storedLock_eq] at stored
  have listed := honest.listed lockId lock stored inT
  constructor
  · intro account
    rw [represents.storedIds_eq]
    exact listed account
  · intro unpaused context caller
    rw [represents.paused] at unpaused
    have member : lockId ∈ book.idsOf context.caller := by
      apply List.count_pos_iff.mp
      rw [listed, if_pos caller.symm]
      exact Nat.one_pos
    constructor
    · exact exists_transferLock_of_mem represents honest.sound member unpaused stored
        caller.symm
    · intro failure fails
      exact fails_claim_of_mem represents honest.sound member honest.fits unpaused stored
        caller.symm fails

/-- And a deploy by another account than the recipient of a live lock in `T`, with
whatever is called back inside it, leaves the lock's bytes as they are and pays nothing
out of it. -/
theorem recipient_only_reentrant
    (initialised : first.storage = .initialised admin paused package) (empty : first.log = [])
    (deploys : VestDeploys T answer drift (fun _ => loneLock) start first now w)
    {entry : Call} {depth : Nat} (permitted : loneLock [] w entry)
    (success : Runs (Embedded (Call.program context) answer drift (Hostile T) loneLock depth
      [entry]) (entry.program context) w () w')
    {lockId : UInt64} {lock : VestInfo} (stored : storedLock lockId w.storage = some lock)
    (inT : lock.tokenHash = T) (other : lock.recipient ≠ context.caller) :
    storedBytes lockId w'.storage = storedBytes lockId w.storage ∧
      ∃ more, w'.log = w.log ++ more ∧
        ∀ payout, .claimed payout ∈ more → payout.lockId ≠ lockId := by
  obtain ⟨book, represents, honest⟩ := Honest.reached initialised empty deploys
  obtain ⟨book', represents', -, apart⟩ :=
    (honest_custody context).call permitted success book represents honest
  obtain ⟨more, log, others⟩ := apart.others
  rw [represents.storedLock_eq] at stored
  obtain ⟨same, quiet⟩ := others lockId lock stored inT other
  refine ⟨?_, more, log, fun payout member => quiet _ member⟩
  rw [represents'.storedBytes_eq, represents.storedBytes_eq, same]

end Deploys

section Sample

open Sample Staking.Sample

/-- The second token claims the first lock whenever it is called: inside a deposit and
inside a payment of its own. -/
def claimedInside : VestWorld Erc20Ledger :=
  (reentered? loneLock (.claim 0)
    [(10, staker 1, .lock tokenA (units 30) 90 50 3),
      (120, staker 1, .lock tokenB (units 10) 20 0 1), (160, staker 1, .claim 1)]).get
    (by decide +kernel)

private theorem deploys_claimedInside :
    ∃ later, VestDeploys tokenA answer drift (fun _ => loneLock) 0 ready later claimedInside :=
  deploys_reentered _

theorem schedules_paid_once_reentrant_claimedInside :
    paidOutOf 0 claimedInside.log + leftIn (storedLock 0 claimedInside.storage) =
      remaining inThree.schedules := by
  obtain ⟨later, deploys⟩ := deploys_claimedInside
  have locked : .locked inThree ∈ claimedInside.log := by decide +kernel
  exact (schedules_paid_once_reentrant rfl rfl deploys locked (by decide)).1

example : paymentsOf 0 0 claimedInside.log =
      [{ timestamp := 120, release := 100, amount := 10 }] ∧
    paymentsOf 0 1 claimedInside.log =
      [{ timestamp := 160, release := 150, amount := 10 }] := by
  decide +kernel

def lastThird : VestInfo :=
  (storedLock 0 claimedInside.storage).get (by decide +kernel)

private theorem stored_lastThird : storedLock 0 claimedInside.storage = some lastThird :=
  (Option.some_get _).symm

theorem ids_exact_reentrant_claimedInside :
    (storedIds (staker 1) claimedInside.storage).count 0 = 1 := by
  obtain ⟨later, deploys⟩ := deploys_claimedInside
  have isLast : lastThird.tokenHash = tokenA ∧ lastThird.recipient = staker 1 := by
    decide +kernel
  have counts := (ids_exact_reentrant rfl rfl deploys stored_lastThird isLast.1).1 (staker 1)
  rw [if_pos isLast.2] at counts
  exact counts

def twoLocks : VestWorld Erc20Ledger :=
  (reentered? loneLock (.claim 1)
    [(10, staker 1, .lock tokenA (units 30) 90 50 3),
      (20, staker 2, .lock tokenA (units 10) 90 50 2)]).get (by decide +kernel)

/-- The second one locks the second token, which makes its owner claim inside. -/
def ownClaimInside? : Option (Unit × VestWorld Erc20Ledger) :=
  (Call.program { caller := staker 2, blocktime := 120 }
      (.lock tokenB (units 10) 20 0 1)).exec
    (execNested (Call.program { caller := staker 2, blocktime := 120 })
      (Erc20Ledger.answer package) loneLock (reenters (.claim 1)) 2
      [.lock tokenB (units 10) 20 0 1]) twoLocks

private theorem ownClaimInside_isSome : ownClaimInside?.isSome := by decide +kernel

def ownClaimInside : VestWorld Erc20Ledger :=
  (ownClaimInside?.get ownClaimInside_isSome).2

theorem recipient_only_reentrant_ownClaimInside :
    storedBytes 0 ownClaimInside.storage = storedBytes 0 twoLocks.storage := by
  obtain ⟨later, deploys⟩ :
      ∃ later, VestDeploys tokenA answer drift (fun _ => loneLock) 0 ready later twoLocks :=
    deploys_reentered _
  have evaluated : ownClaimInside? = some ((), ownClaimInside) :=
    (Option.some_get ownClaimInside_isSome).symm
  have run : Runs (Embedded (Call.program { caller := staker 2, blocktime := 120 }) answer
      drift (Hostile tokenA) loneLock 2 [.lock tokenB (units 10) 20 0 1])
      (Call.program { caller := staker 2, blocktime := 120 } (.lock tokenB (units 10) 20 0 1))
      twoLocks () ownClaimInside :=
    runs_of_exec (fun _ _ _ => embedded_of_execNested hostile_of_reenters) evaluated
  have guarded : loneLock [] twoLocks (.lock tokenB (units 10) 20 0 1) := by decide +kernel
  have isFirst : ∃ lock, storedLock 0 twoLocks.storage = some lock ∧
      lock.tokenHash = tokenA ∧ lock.recipient ≠ staker 2 :=
    ⟨(storedLock 0 twoLocks.storage).get (by decide +kernel), (Option.some_get _).symm,
      by decide +kernel⟩
  obtain ⟨lock, stored, inT, other⟩ := isFirst
  exact (recipient_only_reentrant rfl rfl deploys guarded run stored inT other).1

example : paidOutOf 1 ownClaimInside.log = 5 := by decide +kernel

end Sample

end CasperContracts.Vesting
