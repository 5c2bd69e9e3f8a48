import CasperContracts.Vesting.Run

/-!
# What a lock pays out

What has been paid out of a lock and what remains in it add up to what it was
created with.  Of the single schedule either everything remains and nothing
has been paid, or it has been paid once, in full, at a time when it was due;
and release times only move to later.
-/

namespace CasperContracts.Vesting

open CasperContracts.Basis Host Prog

/-- One payment of a schedule: its time, the release time then in force, and the
amount. -/
structure Payment where
  timestamp : UInt64
  release : UInt64
  amount : Nat
  deriving DecidableEq

/-- What a claim has paid of the schedule at an index. -/
def Payout.payment (index : Nat) (payout : Payout) : Option Payment :=
  match payout.before[index]?, payout.after[index]? with
  | some s, some s' =>
      if s'.amount = s.amount then none
      else some {
        timestamp := payout.timestamp
        release := s.release
        amount := s.amount.toNat - s'.amount.toNat }
  | _, _ => none

def payoutsOf (lockId : UInt64) (log : List Event) : List Payout :=
  log.filterMap fun event =>
    match event with
    | .claimed payout => if payout.lockId = lockId then some payout else none
    | .locked _ => none

def paymentsOf (lockId : UInt64) (index : Nat) (log : List Event) : List Payment :=
  (payoutsOf lockId log).filterMap (Payout.payment index)

def paidOutOf (lockId : UInt64) (log : List Event) : Nat :=
  ((payoutsOf lockId log).map fun payout => payout.amount.toNat).sum

/-- What a stored lock, if any, still holds. -/
def leftIn (lock : Option VestInfo) : Nat :=
  lock.elim 0 fun lock => remaining lock.schedules

/-- What the schedule at an index of a stored lock, if any, still holds. -/
def leftAt (index : Nat) (lock : Option VestInfo) : Nat :=
  lock.elim 0 fun lock => (lock.schedules[index]?).elim 0 fun s => s.amount.toNat

section Log

variable {lockId : UInt64} {index : Nat} {log more : List Event}

@[simp] theorem payoutsOf_append :
    payoutsOf lockId (log ++ more) = payoutsOf lockId log ++ payoutsOf lockId more :=
  List.filterMap_append

@[simp] theorem paymentsOf_append :
    paymentsOf lockId index (log ++ more) =
      paymentsOf lockId index log ++ paymentsOf lockId index more := by
  rw [paymentsOf, payoutsOf_append, List.filterMap_append]
  rfl

@[simp] theorem paidOutOf_append :
    paidOutOf lockId (log ++ more) = paidOutOf lockId log + paidOutOf lockId more := by
  rw [paidOutOf, payoutsOf_append, List.map_append, List.sum_append]
  rfl

theorem paymentsOf_nil : paymentsOf lockId index [] = [] := rfl

theorem paymentsOf_claimed {payout : Payout} (own : payout.lockId = lockId) :
    paymentsOf lockId index [.claimed payout] = (payout.payment index).toList := by
  cases paid : payout.payment index <;> simp [paymentsOf, payoutsOf, own, paid]

theorem payoutsOf_eq_nil (others : ∀ event ∈ log, event.lockId ≠ lockId) :
    payoutsOf lockId log = [] := by
  rw [payoutsOf, List.filterMap_eq_nil_iff]
  intro event member
  cases event with
  | locked info => rfl
  | claimed payout => exact if_neg (others _ member)

end Log

/-! ## One schedule -/

section Single

variable {lock : VestInfo} {timestamp : UInt64} {index amount : Nat} {payments : List Payment}

/-- A schedule of the amount is unpaid, or it has been paid in full when it was
due. -/
def Settled (amount : Nat) (payments : List Payment) (left : Nat) : Prop :=
  (payments = [] ∧ left = amount) ∨
    ∃ payment, payments = [payment] ∧ payment.amount = amount ∧
      payment.release ≤ payment.timestamp ∧ left = 0

theorem leftAt_of_cleared (index : Nat) (left : VestInfo) :
    leftAt index (if remaining left.schedules = 0 then none else some left) =
      leftAt index (some left) := by
  split
  · rename_i nothing
    rw [remaining_eq_zero] at nothing
    cases here : left.schedules[index]? with
    | none => simp [leftAt, here]
    | some s =>
        have zero := nothing s (List.mem_of_getElem? here)
        simp [leftAt, here, zero]
  · rfl

theorem leftAt_set {position : Nat} {newRelease : UInt64} {s : LockSchedule}
    (here : lock.schedules[position]? = some s) :
    leftAt index (some { lock with
      schedules := lock.schedules.set position { s with release := newRelease } }) =
      leftAt index (some lock) := by
  by_cases same : position = index
  · subst same
    obtain ⟨inside, rfl⟩ := List.getElem?_eq_some_iff.mp here
    simp [leftAt, inside]
  · simp [leftAt, List.getElem?_set_ne same]

theorem leftIn_of_cleared (left : VestInfo) :
    leftIn (if remaining left.schedules = 0 then none else some left) =
      remaining left.schedules := by
  split
  · rename_i nothing
    exact nothing.symm
  · rfl

/-- A claim pays a schedule that is due and not empty, and leaves the others. -/
theorem Settled.claim (settled : Settled amount payments (leftAt index (some lock)))
    {payout : Payout} (time : payout.timestamp = timestamp)
    (before : payout.before = lock.schedules)
    (after : payout.after = (lock.claimed timestamp).schedules) :
    Settled amount (payments ++ (payout.payment index).toList)
      (leftAt index (some (lock.claimed timestamp))) := by
  cases here : lock.schedules[index]? with
  | none =>
      have none' : (lock.claimed timestamp).schedules[index]? = none := by
        simp [VestInfo.claimed, here]
      simp only [leftAt, Option.elim_some, here, none', Payout.payment, before,
        Option.elim_none, Option.toList_none, List.append_nil] at settled ⊢
      exact settled
  | some s =>
      have after' : (lock.claimed timestamp).schedules[index]? =
          some (s.claimed timestamp) := by
        simp [VestInfo.claimed, here]
      simp only [leftAt, Option.elim_some, here, after', Payout.payment, before, after,
        time] at settled ⊢
      split
      · rename_i same
        rw [same, Option.toList_none, List.append_nil]
        exact settled
      · rename_i different
        have isDue : s.release ≤ timestamp := by
          by_contra notDue
          exact different (congrArg _ (claimed_of_not_due (UInt64.not_le.mp notDue)))
        rw [claimed_of_due isDue] at different ⊢
        rcases settled with ⟨rfl, same⟩ | ⟨payment, -, -, -, zero⟩
        · exact .inr ⟨_, rfl, by simpa using same, isDue, rfl⟩
        · exact absurd (U256.toNat_injective zero).symm different

end Single

/-! ## One lock -/

/-- The entry exists and none of its release times is earlier than in `base`. -/
structure LaterThan (base : List LockSchedule) (lockId : UInt64) (book : Book) : Prop where
  stored : book.entries.lookup lockId ≠ none
  later : ∀ lock, book.lock lockId = some lock → Later base lock.schedules

/-- What a lock created as `info` has paid and still holds. -/
structure Vested (info : VestInfo) (book : Book) (log : List Event) : Prop where
  total : paidOutOf info.id log + leftIn (book.lock info.id) = remaining info.schedules
  settled : ∀ index s, info.schedules[index]? = some s →
    Settled s.amount.toNat (paymentsOf info.id index log) (leftAt index (book.lock info.id))
  released : LaterThan info.schedules info.id book

section Change

variable {context : Context} {book book' : Book} {call : Call} {requests : List TokenCall}
  {events log : List Event} {lockId : UInt64} {base : List LockSchedule} {info : VestInfo}

private theorem Touch.later {lock lock' : VestInfo} (touch : Touch context lockId lock
    (some lock') requests events) : Later lock.schedules lock'.schedules := by
  rcases touch.left_cases with ⟨index, newRelease, schedule, here, later, rfl⟩ | ⟨_, rfl⟩ | rfl
  · exact .set here later
  · exact .refl _
  · exact .claimed _ _

theorem LaterThan.change (laterThan : LaterThan base lockId book) (sound : Sound book log)
    (change : Change context book call requests events book') :
    LaterThan base lockId book' := by
  cases change.entry lockId with
  | untouched same =>
      refine ⟨same ▸ laterThan.stored, fun lock found => laterThan.later lock ?_⟩
      rw [Book.lock_eq_some] at found ⊢
      rw [← same, found]
  | created next => exact absurd (next ▸ sound.vacant) laterThan.stored
  | @touched lock entry found _ stored touch =>
      refine ⟨by simp [stored], fun lock' found' => ?_⟩
      rw [Book.lock_eq_some] at found'
      cases stored.symm.trans found'
      exact (laterThan.later lock found).trans touch.later

private theorem Vested.touch {lock : VestInfo} {entry : Option VestInfo}
    (vested : Vested info book log) (sound : Sound book log)
    (change : Change context book call requests events book')
    (found : book.lock info.id = some lock) (stored : book'.lock info.id = entry)
    (touch : Touch context info.id lock entry requests events) :
    Vested info book' (log ++ events) := by
  refine ⟨?_, fun index s here => ?_, vested.released.change sound change⟩
  · have total := vested.total
    rw [found] at total
    rw [paidOutOf_append, stored]
    cases touch with
    | extend here later =>
        rw [← total, leftIn, Option.elim_some, remaining_set here]
        rfl
    | transfer => exact total
    | claim paid nonzero left =>
        subst left
        rw [leftIn_of_cleared, ← total, leftIn, Option.elim_some, ← paid]
        simp [paidOutOf, payoutsOf]
        omega
  · have settled := vested.settled index s here
    rw [found] at settled
    rw [paymentsOf_append, stored]
    cases touch with
    | extend hereToo later =>
        rw [leftAt_set hereToo, paymentsOf_nil, List.append_nil]
        exact settled
    | transfer =>
        rw [paymentsOf_nil, List.append_nil]
        exact settled
    | claim paid nonzero left =>
        subst left
        rw [leftAt_of_cleared, paymentsOf_claimed (by rfl)]
        exact settled.claim rfl rfl rfl

theorem Vested.change (vested : Vested info book log) (sound : Sound book log)
    (change : Change context book call requests events book') :
    Vested info book' (log ++ events) := by
  cases change.entry info.id with
  | untouched same others =>
      have same' : payoutsOf info.id (log ++ events) = payoutsOf info.id log := by
        rw [payoutsOf_append, payoutsOf_eq_nil others, List.append_nil]
      have sameLock : book'.lock info.id = book.lock info.id := congrArg Option.join same
      refine ⟨?_, fun index s here => ?_, vested.released.change sound change⟩
      · rw [paidOutOf, same', sameLock]
        exact vested.total
      · rw [paymentsOf, same', sameLock]
        exact vested.settled index s here
  | created next => exact absurd (next ▸ sound.vacant) vested.released.stored
  | touched found _ stored touch =>
      exact vested.touch sound change found (congrArg Option.join stored) touch

/-- A lock starts with everything it was created with. -/
theorem vested_of_created (sound : Sound book log) (next : info.id = book.index)
    (stored : book'.entries.lookup info.id = some (some info)) :
    Vested info book' (log ++ [.locked info]) := by
  have found : book'.lock info.id = some info := Book.lock_eq_some.mpr stored
  have noPayout : payoutsOf info.id (log ++ [.locked info]) = [] := by
    rw [payoutsOf_append]
    refine List.append_eq_nil_iff.mpr ⟨payoutsOf_eq_nil fun event member => ?_, rfl⟩
    rw [next]
    exact UInt64.ne_of_lt (sound.logged event member)
  refine ⟨?_, fun index s here => .inl ⟨?_, ?_⟩, ⟨by simp [stored], fun lock isLock => ?_⟩⟩
  · rw [paidOutOf, noPayout, found]
    exact Nat.zero_add _
  · rw [paymentsOf, noPayout]
    rfl
  · simp [found, leftAt, here]
  · rw [found, Option.some.injEq] at isLock
    exact isLock ▸ Later.refl _

theorem Change.claim_leaves {lock : VestInfo}
    (change : Change context book (.claim lockId) requests events book')
    (found : book'.lock lockId = some lock) :
    ∀ s ∈ lock.schedules, s.amount.toNat ≠ 0 → context.blocktime < s.release := by
  have leaves (before : VestInfo) (s : LockSchedule)
      (member : s ∈ (before.claimed context.blocktime).schedules)
      (left : s.amount.toNat ≠ 0) : context.blocktime < s.release := by
    obtain ⟨s, -, rfl⟩ := List.mem_map.mp member
    rw [claimed_release]
    exact not_due_of_claimed left
  cases change with
  | @claim _ before amount _ access paid nonzero stored =>
      cases stored with
      | part some =>
          rw [Book.putEntry_lock, if_pos rfl, Option.some.injEq] at found
          subst found
          exact leaves before
      | finished nothing listed =>
          rw [Book.dropId_lock, Book.putEntry_lock, if_pos rfl] at found
          cases found

end Change

/-! ## Reached states -/

section Reached

variable {E : Type} {answer : TokenCall → E → E → Prop} {drift : E → E → Prop}

theorem vested_law : Law answer drift fun book _ log =>
    ∀ info, .locked info ∈ log → Vested info book log where
  drift := fun holds _ => holds
  change := by
    intro context call book book' requests events e e' log sound vested change _ info locked
    rcases List.mem_append.mp locked with earlier | new
    · exact (vested info earlier).change sound change
    · cases change.entry info.id with
      | untouched _ others => exact absurd rfl (others _ new)
      | created next _ _ stored logs =>
          subst logs
          cases List.mem_singleton.mp new
          exact vested_of_created sound next stored
      | touched found _ stored touch => cases touch <;> simp at new

private theorem laterThan_law (base : List LockSchedule) (lockId : UInt64) :
    Law answer drift fun book _ _ => LaterThan base lockId book where
  drift := fun holds _ => holds
  change := fun sound laterThan change _ => laterThan.change sound change

variable {start now : UInt64} {first w : VestWorld E} {info : VestInfo}
  {steps : List (Step Context Call Storage E Event)}

/-- In every state of a run, for every lock that has been created: what claims have
paid and what remains add up to what it was created with; every schedule is unpaid,
or it has been paid once, in full and when it was due; release times never move to
earlier; and after a claim nothing that is left is due. -/
theorem schedules_paid_once (fresh : Uninitialised first.storage) (empty : first.log = [])
    (history : VestHistory answer drift start first steps now w) (few : FewLocks w.log)
    (locked : .locked info ∈ w.log) :
    paidOutOf info.id w.log + leftIn (storedLock info.id w.storage) =
      remaining info.schedules ∧
    (∀ index s, info.schedules[index]? = some s →
      Settled s.amount.toNat (paymentsOf info.id index w.log)
        (leftAt index (storedLock info.id w.storage))) ∧
    (∀ lock, storedLock info.id w.storage = some lock → Later info.schedules lock.schedules ∧
      ∀ more later w', VestHistory answer drift now w more later w' → FewLocks w'.log →
        ∀ lock', storedLock info.id w'.storage = some lock' →
          Later lock.schedules lock'.schedules) ∧
    ∀ context w', Runs (Quiet answer) (claim context info.id) w () w' →
      ∀ lock, storedLock info.id w'.storage = some lock →
        ∀ s ∈ lock.schedules, s.amount.toNat ≠ 0 → context.blocktime < s.release := by
  rcases vested_law.reached (by simp) fresh empty history few with
    ⟨-, noLog⟩ | ⟨book, represents, sound, vested⟩
  · simp [noLog] at locked
  replace vested := vested info locked
  rw [represents.storedLock_eq]
  refine ⟨vested.total, vested.settled, fun lock found => ⟨vested.released.later lock found, ?_⟩,
    ?_⟩
  · intro more later w' onward fewLater lock' found'
    have base : LaterThan lock.schedules info.id book :=
      ⟨vested.released.stored, fun other isOther => by
        rw [found, Option.some.injEq] at isOther
        exact isOther ▸ Later.refl _⟩
    obtain ⟨book', represents', -, laterThan⟩ :=
      (laterThan_law lock.schedules info.id).onward represents sound base onward fewLater
    rw [represents'.storedLock_eq] at found'
    exact laterThan.later lock' found'
  · intro context w' success lock found
    have called : Runs (Quiet answer) ((Call.claim info.id).program context) w () w' := success
    obtain ⟨book', requests, events, change, represents', -, -⟩ :=
      change_of_runs represents called
    rw [represents'.storedLock_eq] at found
    exact change.claim_leaves found

/-- What is recorded as a payout has been asked for: only a claim of the lock by its recipient
records one, and its one request brings the recipient that amount of the token. -/
theorem payouts_requested (fresh : Uninitialised first.storage) (empty : first.log = [])
    (history : VestHistory answer drift start first steps now w) (few : FewLocks w.log)
    {context : Context} {entry : Call} {w' : VestWorld E}
    (success : Runs (Quiet answer) (entry.program context) w () w') {payout : Payout}
    (paid : .claimed payout ∈ w'.log.drop w.log.length) :
    entry = .claim payout.lockId ∧ w'.log = w.log ++ [.claimed payout] ∧
      ∃ lock, storedLock payout.lockId w.storage = some lock ∧
        payout.payee = lock.recipient ∧ payout.payee = context.caller ∧
        payout.timestamp = context.blocktime ∧ payout.before = lock.schedules ∧
        Answers answer [.transfer lock.tokenHash (.account payout.payee) payout.amount]
          w.outside w'.outside := by
  rcases sound_law.reached (fun _ _ _ _ => trivial) fresh empty history few with
    ⟨still, -⟩ | ⟨book, represents, -, -⟩
  · have quietly := (entry_of_uninitialised still success).1
    rw [quietly, List.drop_length] at paid
    cases paid
  · obtain ⟨book', requests, events, change, -, log, answered⟩ :=
      change_of_runs represents success
    rw [log, List.drop_left] at paid
    cases change with
    | claim access sums nonzero stored =>
        cases List.mem_singleton.mp paid
        refine ⟨rfl, log, _, ?_, access.owned.symm, rfl, rfl, rfl, answered⟩
        rw [represents.storedLock_eq]
        exact access.found
    | lock => simp at paid
    | extendLock => cases paid
    | transferLock => cases paid
    | setAdmin => cases paid
    | setPauseContract => cases paid

end Reached

section Sample

open Sample Staking.Sample

def inThree : VestInfo where
  id := 0
  lockTime := 10
  recipient := staker 1
  tokenHash := tokenA
  schedules := [{ release := 100, amount := units 10 }, { release := 150, amount := units 10 },
    { release := 200, amount := units 10 }]

/-- The second part is extended, the first one claimed, and the lock given away. -/
def givenAway : VestWorld Erc20Ledger :=
  after
    [setUp, (10, staker 1, .lock tokenA (units 30) 90 50 3),
      (20, staker 1, .extendLock 0 1 170), (160, staker 1, .claim 0),
      (165, staker 1, .transferLock 0 (staker 2))]
    0 opening (by decide +kernel)

theorem schedules_paid_once_givenAway :
    paidOutOf 0 givenAway.log + leftIn (storedLock 0 givenAway.storage) =
      remaining inThree.schedules := by
  obtain ⟨steps, later, history⟩ :
      ∃ steps later, VestHistory answer drift 0 opening steps later givenAway :=
    history_after _
  have locked : .locked inThree ∈ givenAway.log := by decide +kernel
  exact (schedules_paid_once ⟨owner, false, rfl⟩ rfl history (by decide +kernel) locked).1

example : paymentsOf 0 0 givenAway.log = [{ timestamp := 160, release := 100, amount := 10 }] ∧
    paymentsOf 0 1 givenAway.log = [] := by
  decide +kernel

end Sample

end CasperContracts.Vesting
