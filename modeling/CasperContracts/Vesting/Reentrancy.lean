import CasperContracts.Basis.Custody
import CasperContracts.Vesting.Allocation
import CasperContracts.Vesting.Backing

/-!
# Locks among tokens that call back

All tokens but one may run entry points of the contract inside a request.  A
call that waits for such a token goes on with what it has read before, on
whatever book it finds: it creates its lock, or stores what is left of the one
it claims.  `reentered_cases` says so once for all entry points; the other
calls are changes of the book as before.  The locks in the one token that does
not call back stay backed.
-/

namespace CasperContracts.Vesting

open CasperContracts.Basis Host Prog

/-! ## Calls that wait -/

/-- What a call that has read `book` does to the book it finds when its token,
which is not `T`, has answered. -/
inductive Late (T : ContractHash) (context : Context) (book : Book) :
    Call → Book → List Event → Book → Prop where
  | lock {tokh : ContractHash} {cliffAmount : U256} {cliffDurtime timeBetweenLocks : UInt64}
      {numberOfLocks : UInt32} {info : VestInfo} {found : Book} {known : Bool}
      (other : tokh ≠ T)
      (new : NewLock context book.index tokh cliffAmount cliffDurtime timeBetweenLocks
        numberOfLocks info)
      (unlisted : known = false → book.idsOf context.caller = []) :
      Late T context book (.lock tokh cliffAmount cliffDurtime timeBetweenLocks numberOfLocks)
        found [.locked info]
        { (found.putEntry book.index (some info)).enlist known context.caller book.index with
          index := book.index + 1 }
  | claim {lockId : UInt64} {lock : VestInfo} {amount : U256} {found book' : Book}
      (access : Access context book lockId lock) (other : lock.tokenHash ≠ T)
      (stored : Stored found context.caller lockId (lock.claimed context.blocktime) book') :
      Late T context book (.claim lockId) found
        [.claimed {
          lockId
          payee := context.caller
          timestamp := context.blocktime
          amount
          before := lock.schedules
          after := (lock.claimed context.blocktime).schedules }]
        book'

def Hostile (T : ContractHash) (c : TokenCall) : Prop :=
  c.token ≠ T

section Inversion

variable {E : Type} {T : ContractHash} {context : Context} {stack : List Call} {call : Call}
variable {answer : TokenCall → E → E → Prop}
variable {respond : TokenCall → VestWorld E → VestWorld E → Prop}
variable {w w' : VestWorld E} {book : Book}
variable {Good : Book → E → List Event → Prop}
variable {Between : List Call → Book → List Event → Book → List Event → Prop}

/-- A call is a change of the book, or it goes on late on a book that is good. -/
theorem reentered_cases
    (home : ∀ {stack book log book' log'}, Between stack book log book' log' →
      book'.selfHash = book.selfHash)
    (represents : Represents w.storage book) (good : Good book w.outside w.log)
    (answers : ∀ c u v, respond c u v →
      Reliable Represents Good Between answer (Hostile T) (call :: stack) c u v)
    (run : Runs respond (call.program context) w () w') :
    (∃ book' requests events, Change context book call requests events book' ∧
      Represents w'.storage book' ∧ w'.log = w.log ++ events ∧
      Answers answer requests w.outside w'.outside) ∨
    ∃ found log events book', Good found w'.outside log ∧
      Between (call :: stack) book w.log found log ∧
      Late T context book call found events book' ∧
      Represents w'.storage book' ∧ w'.log = log ++ events := by
  cases call with
  | init contHash =>
      have fresh := (runs_init run).1
      rw [represents.initialized] at fresh
      cases fresh
  | lock tokh cliffAmount cliffDurtime timeBetweenLocks numberOfLocks =>
      obtain ⟨info, u, storage', unpaused, new, responded, written, rfl⟩ :=
        runs_lock represents run
      rcases answers _ _ _ responded with ⟨e, answered, rfl⟩ | ⟨hostile, held⟩
      · exact .inl ⟨_, _, _, .lock unpaused new,
          (represents.updateStorage_quietly written).setIndex _, rfl,
          answers_singleton.mpr answered⟩
      · obtain ⟨found, representsU, goodU, between⟩ := held book represents good
        rw [← home between] at written
        exact .inr ⟨found, u.log, _, _, goodU, between,
          .lock hostile new fun unknown => represents.idsOf_of_hasKey unknown,
          (representsU.updateStorage_eq_ok written).setIndex _, rfl⟩
  | extendLock lockId index newRelease =>
      obtain ⟨lock, schedule, storage', access, here, later, written, rfl⟩ :=
        runs_extendLock represents run
      obtain ⟨after, put, represents'⟩ := represents.dictionaryPut_eq lockId (some { lock with
        schedules := lock.schedules.set index.toNat { schedule with release := newRelease } })
      cases written.symm.trans put
      exact .inl ⟨_, _, _, .extendLock access here later, represents', by simp, .nil _⟩
  | transferLock lockId newOwner =>
      obtain ⟨lock, storage', access, written, rfl⟩ := runs_transferLock represents run
      obtain ⟨idx, listed, represents'⟩ := represents.updateStorageTransferLock_eq_ok written
      exact .inl ⟨_, _, _, .transferLock access listed, represents', by simp, .nil _⟩
  | claim lockId =>
      obtain ⟨lock, amount, u, storage', access, paid, nonzero, responded, written, rfl⟩ :=
        runs_claim represents run
      rcases answers _ _ _ responded with ⟨e, answered, rfl⟩ | ⟨hostile, held⟩
      · obtain ⟨book', stored, represents'⟩ := represents.storeClaimed_eq_ok written
        exact .inl ⟨_, _, _, .claim access paid nonzero stored, represents', rfl,
          answers_singleton.mpr answered⟩
      · obtain ⟨found, representsU, goodU, between⟩ := held book represents good
        rw [← home between] at written
        obtain ⟨book', stored, represents'⟩ := representsU.storeClaimed_eq_ok written
        exact .inr ⟨found, u.log, _, _, goodU, between, .claim access hostile stored,
          represents', rfl⟩
  | setAdmin account =>
      obtain ⟨admin, rfl⟩ := runs_setAdmin represents run
      exact .inl ⟨_, _, _, .setAdmin admin, represents.setAdmin account, by simp, .nil _⟩
  | setPauseContract =>
      obtain ⟨admin, rfl⟩ := runs_setPauseContract represents run
      exact .inl ⟨_, _, _, .setPauseContract admin, represents.setPaused _, by simp, .nil _⟩

end Inversion

/-! ## Backing -/

section Backing

variable {E : Type} {package : ContractPackageHash} {T : ContractHash}
variable {answer : TokenCall → E → E → Prop} {drift : E → E → Prop}
variable {balance : E → Address → Nat} {context : Context} {call : Call}
variable {book found book' : Book} {events : List Event} {e e' : E}

/-- A write of another token's lock, or of none, adds nothing to what is owed. -/
private theorem total_putEntry_le (book : Book) (lockId : UInt64) {entry : Option VestInfo}
    (other : owed T entry = 0) :
    FiniteStore.total (fun _ entry => owed T entry) (book.putEntry lockId entry).entries ≤
      FiniteStore.total (fun _ entry => owed T entry) book.entries := by
  have traded := total_putEntry T book lockId entry
  omega

private theorem Late.total_le (late : Late T context book call found events book') :
    FiniteStore.total (fun _ entry => owed T entry) book'.entries ≤
      FiniteStore.total (fun _ entry => owed T entry) found.entries := by
  cases late with
  | lock other new unlisted =>
      change FiniteStore.total _ (Book.enlist _ _ _ _).entries ≤ _
      rw [Book.enlist_entries]
      apply total_putEntry_le
      rw [owed, new.tokenHash, if_neg other]
  | @claim lockId _ _ _ _ access other stored =>
      cases stored with
      | part some =>
          apply total_putEntry_le
          exact if_neg other
      | finished nothing listed =>
          exact total_putEntry_le found lockId rfl

private theorem Late.selfHash (late : Late T context book call found events book') :
    book'.selfHash = found.selfHash := by
  cases late with
  | @lock _ _ _ _ _ _ _ known other new unlisted => cases known <;> rfl
  | claim access other stored => cases stored <;> rfl

private theorem backed_tolerates
    (standard : StandardToken package T answer drift balance) :
    Tolerates (fun book e (_ : List Event) => Backed package T balance book e) answer drift
      (Hostile T) where
  drifting := by
    intro book e e' log backed drifts
    exact ⟨backed.self, le_trans backed.covered (standard.drift drifts)⟩
  answered := by
    intro c book e e' log hostile backed answered
    exact ⟨backed.self, le_trans backed.covered (standard.others answered hostile)⟩

private theorem backed_custody
    (standard : StandardToken package T answer drift balance) (context : Context) :
    Custody Represents (fun book e (_ : List Event) => Backed package T balance book e)
      (fun _ book _ book' _ => book'.selfHash = book.selfHash) (Call.program context) answer
      drift (Hostile T) (fun _ _ _ => True) where
  ledger := backed_tolerates standard
  refl := rfl
  trans := fun first second => second.trans first
  entry := by
    intro stack call u v respond _ answers run book represents backed
    rcases reentered_cases id represents backed answers run with
      ⟨book', requests, events, change, represents', -, answered⟩ |
      ⟨found, log, events, book', backedFound, home, late, represents', -⟩
    · have backed' := backed.change standard change answered
      exact ⟨book', represents', backed', backed'.self.trans backed.self.symm⟩
    · exact ⟨book', represents',
        ⟨late.selfHash.trans backedFound.self, le_trans late.total_le backedFound.covered⟩,
        late.selfHash.trans home⟩

/-- The deploys in which every token but `T` may call back. -/
abbrev VestDeploys {E : Type} (T : ContractHash) (answer : TokenCall → E → E → Prop)
    (drift : E → E → Prop) (allowed : Context → List Call → VestWorld E → Call → Prop) :=
  Deploys Call.program Context.blocktime answer drift (Hostile T) allowed

variable {start now : UInt64} {first w : VestWorld E} {admin : AccountHash} {paused : Bool}

/-- Whatever the other tokens do when they are called, and however deep, the contract
owns at least what remains of all live locks in a standard token; so whatever a claim
pays for one of them is there, on top of what remains of all others. -/
theorem locks_backed_reentrant (standard : StandardToken package T answer drift balance)
    (initialised : first.storage = .initialised admin paused package)
    (deploys : VestDeploys T answer drift (fun _ _ _ _ => True) start first now w) :
    owedIn T w.storage ≤ balance w.outside (.contract package) ∧
    ∀ lockId lock, storedLock lockId w.storage = some lock → lock.tokenHash = T →
      ∀ timestamp amount after,
        claimSchedules timestamp lock.schedules U256.zero = some (amount, after) →
        amount.toNat + owedByOthers T lockId w.storage ≤
          balance w.outside (.contract package) := by
  have represents : Represents first.storage (.empty admin paused package) := by
    rw [initialised]
    exact represents_initialised admin paused package
  have backed : Backed package T balance (.empty admin paused package) first.outside :=
    ⟨rfl, Nat.zero_le _⟩
  obtain ⟨book, representsW, backedW⟩ := deploys.held (backed_tolerates standard)
    (backed_custody standard) represents backed
  have covered := backedW.covered
  rw [← owedIn_eq representsW] at covered
  refine ⟨covered, fun lockId lock stored inT timestamp amount after loop => ?_⟩
  rw [representsW.storedLock_eq] at stored
  have split := remaining_add_owedByOthers representsW stored inT
  have paid := (claimSchedules_eq_some loop).2
  rw [U256.toNat_zero] at paid
  omega

end Backing

/-! ## Scripted call-backs -/

namespace Sample

open Staking.Sample

/-- The second token makes a call whenever a call of the deploy itself reaches it. -/
def reenters (back : Call) : List Call → TokenCall → List Call
  | [_], c => if c.token = tokenB then [back] else []
  | _, _ => []

theorem hostile_of_reenters {back : Call} (stack : List Call) (c : TokenCall)
    (calls : reenters back stack c ≠ []) : Hostile tokenA c := by
  unfold reenters at calls
  split at calls
  · split at calls
    · rename_i isB
      rw [Hostile, isB]
      decide
    · exact absurd rfl calls
  · exact absurd rfl calls

section Reentered

variable (allowed : List Call → VestWorld Erc20Ledger → Call → Prop)
variable [∀ stack w entry, Decidable (allowed stack w entry)]
variable (back : Call) (calls : List (UInt64 × AccountHash × Call))

/-- The calls, each with its block time and its caller, while the second token makes
the call `back`. -/
@[irreducible] def reentered? : Option (VestWorld Erc20Ledger) :=
  replayDeploys Call.program Context.blocktime (fun _ => allowed) (Erc20Ledger.answer package)
    (reenters back)
    (calls.map fun (blocktime, caller, entry) => ({ caller, blocktime }, entry)) 0 ready

variable {allowed back calls}

theorem deploys_reentered (success : (reentered? allowed back calls).isSome) :
    ∃ later, VestDeploys tokenA answer drift (fun _ => allowed) 0 ready later
      ((reentered? allowed back calls).get success) := by
  obtain ⟨w, replays⟩ := Option.isSome_iff_exists.mp success
  have same : (reentered? allowed back calls).get success = w := by
    simp [replays]
  rw [same]
  unfold reentered? at replays
  exact Deploys.replayed hostile_of_reenters .start replays

end Reentered

/-- A lock in the first token is made inside one in the second, which takes its id. -/
def overwrittenInside : VestWorld Erc20Ledger :=
  (reentered? (fun _ _ _ => True) (.lock tokenA (units 4) 90 0 1)
    [(10, staker 1, .lock tokenA (units 30) 90 50 3),
      (20, staker 1, .lock tokenB (units 10) 90 0 1), (150, staker 1, .claim 0)]).get
    (by decide +kernel)

example : owedIn tokenA overwrittenInside.storage = 10 ∧
    overwrittenInside.outside.balance tokenA (.contract package) = 14 := by
  decide +kernel

theorem locks_backed_reentrant_overwrittenInside :
    owedIn tokenA overwrittenInside.storage ≤
      overwrittenInside.outside.balance tokenA (.contract package) := by
  obtain ⟨later, deploys⟩ :
      ∃ later, VestDeploys tokenA answer drift (fun _ _ _ _ => True) 0 ready later
        overwrittenInside :=
    deploys_reentered _
  have standard : StandardToken package tokenA answer drift fun ledger =>
      ledger.balance tokenA := Erc20Ledger.standardToken package tokenA
  exact (locks_backed_reentrant standard rfl deploys).1

end Sample

end CasperContracts.Vesting
