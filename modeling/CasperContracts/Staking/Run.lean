import CasperContracts.Staking.Phases

/-!
# Runs of the staking contract

A run starts from the installed contract.  Time passes, the tokens change on
their own, and calls of any account with any arguments are executed at
non-decreasing block times.  A call that reverts or panics is undone by the
host and therefore is no step.  `Run.represented` is the induction rule: an
invariant of the book that every `Change` keeps holds in every state reached.
-/

namespace CasperContracts.Staking

open CasperContracts.Basis Host Prog

/-- What surrounds the contract: how the tokens answer its requests, and how
they may change between its calls. -/
structure Surroundings (E : Type) where
  answer : TokenCall → E → E → Prop
  drift : E → E → Prop

structure Moment (E : Type) where
  now : UInt64
  world : StakeWorld E

/-- The runs from a given moment whose calls are all permitted in the storage
they find. -/
inductive Run {E : Type} (around : Surroundings E)
    (permitted : Context → Call → Storage → Prop) (first : Moment E) :
    Moment E → Prop where
  | start : Run around permitted first first
  | wait {moment : Moment E} {later : UInt64}
      (run : Run around permitted first moment) (le : moment.now ≤ later) :
      Run around permitted first { moment with now := later }
  | drift {moment : Moment E} {e : E}
      (run : Run around permitted first moment)
      (drifts : around.drift moment.world.outside e) :
      Run around permitted first
        { moment with world := { moment.world with outside := e } }
  | call {moment : Moment E} {context : Context} {call : Call} {w : StakeWorld E}
      (run : Run around permitted first moment) (le : moment.now ≤ context.blocktime)
      (allowed : permitted context call moment.world.storage)
      (success : Runs (Quiet around.answer) (call.program context) moment.world () w) :
      Run around permitted first { now := context.blocktime, world := w }

def unrestricted : Context → Call → Storage → Prop := fun _ _ _ => True

instance (context : Context) (call : Call) (storage : Storage) :
    Decidable (unrestricted context call storage) :=
  inferInstanceAs (Decidable True)

def Storage.installed (admin : AccountHash) : Storage where
  admin := admin
  initialized := false
  index := none
  selfContractHash := none
  stakeInfos := none
  userInfos := none

/-- The contract as installed, at some block time, with no event recorded. -/
def installed {E : Type} (admin : AccountHash) (now : UInt64) (outside : E) :
    Moment E where
  now := now
  world := { storage := .installed admin, outside, log := [] }

/-- The book `init` leaves behind. -/
def Book.empty (admin : AccountHash) (selfHash : ContractPackageHash) : Book where
  admin := admin
  index := 0
  selfHash := selfHash
  pools := ∅
  users := ∅

def Storage.initialised (admin : AccountHash) (selfHash : ContractPackageHash) :
    Storage where
  admin := admin
  initialized := true
  index := some 0
  selfContractHash := some selfHash
  stakeInfos := some ∅
  userInfos := some ∅

theorem represents_initialised (admin : AccountHash) (selfHash : ContractPackageHash) :
    Represents (.initialised admin selfHash) (.empty admin selfHash) where
  admin := rfl
  initialized := rfl
  index := rfl
  selfHash := rfl
  pools := ⟨∅, rfl, FiniteStore.encodes_empty⟩
  users := ⟨∅, rfl, FiniteStore.encodes_empty⟩

/-! ## Before `init` -/

section Uninitialised

variable {E : Type} {respond : TokenCall → StakeWorld E → StakeWorld E → Prop}
variable {context : Context} {call : Call} {w w' : StakeWorld E} {admin : AccountHash}

theorem getPool_installed {poolId : UInt64} {pool : StakePool} :
    getPool poolId (.installed admin) ≠ .ok pool := by
  simp [getPool, isIdValid, getKey, Storage.installed]

theorem getUserInfo_installed {poolId : UInt64} {user : UserInfo} :
    getUserInfoForPool context poolId (.installed admin) ≠ .ok user := by
  simp [getUserInfoForPool, isIdValid, getKey, Storage.installed]

/-- Before `init` only `init`, `save_me` and `set_admin` succeed, whatever the
tokens do. -/
theorem entry_of_installed (fresh : w.storage = .installed admin)
    (run : Runs respond (call.program context) w () w') :
    (∃ selfHash, Represents w'.storage (.empty admin selfHash) ∧ w'.log = w.log) ∨
      (∃ c, respond c w w') ∨
      ∃ admin', w'.storage = .installed admin' ∧ w'.log = w.log := by
  cases call with
  | init contHash =>
      obtain ⟨-, represents, -, log⟩ := runs_init run
      rw [fresh] at represents
      exact .inl ⟨contHash, represents, log⟩
  | addPool stakingToken rewardToken startTime endTime precision totalReward =>
      simp only [Call.program, addPool, runs_revertIf_bind, runs_reads_bind, fresh,
        unwrapOrRevert, unwrapOrRevertWith_eq_ok, Storage.installed] at run
      obtain ⟨-, -, -, _, ⟨⟩, -⟩ := run
  | deposit amount poolId =>
      simp only [Call.program, deposit, runs_revertIf_bind, runs_updatePool_bind,
        fresh] at run
      obtain ⟨-, pool, -, -, readPool, -⟩ := run
      exact absurd readPool getPool_installed
  | withdraw amount poolId =>
      simp only [Call.program, withdraw, runs_revertIf_bind, runs_reads_bind,
        fresh] at run
      obtain ⟨-, user, readUser, -⟩ := run
      exact absurd readUser getUserInfo_installed
  | emergencyWithdraw poolId =>
      simp only [Call.program, emergencyWithdraw, runs_reads_bind, fresh] at run
      obtain ⟨pool, readPool, -⟩ := run
      exact absurd readPool getPool_installed
  | stopReward poolId =>
      simp only [Call.program, stopReward, runs_updatePool_bind, fresh] at run
      obtain ⟨pool, -, -, readPool, -⟩ := run
      exact absurd readPool getPool_installed
  | saveMe tokenHash amount =>
      simp only [Call.program, saveMe, runs_reads_bind, runs_revertIf_bind,
        runs_request] at run
      obtain ⟨_, -, -, answered⟩ := run
      exact .inr (.inl ⟨_, answered⟩)
  | setAdmin account =>
      simp only [Call.program, setAdmin, runs_reads_bind, runs_revertIf_bind,
        runs_updates] at run
      obtain ⟨_, -, -, storage, ⟨⟩, rfl⟩ := run
      refine .inr (.inr ⟨account, ?_, rfl⟩)
      simp [fresh, Storage.installed]

/-- Among quiet tokens a contract is still as installed after such a call, or it
has been initialised. -/
theorem runs_installed {tokens : TokenCall → E → E → Prop}
    (fresh : w.storage = .installed admin)
    (run : Runs (Quiet tokens) (call.program context) w () w') :
    w'.log = w.log ∧
      ((∃ admin', w'.storage = .installed admin') ∨
        ∃ selfHash, Represents w'.storage (.empty admin selfHash)) := by
  rcases entry_of_installed fresh run with
    ⟨selfHash, represents, log⟩ | ⟨c, e, -, rfl⟩ | ⟨admin', stillFresh, log⟩
  · exact ⟨log, .inr ⟨selfHash, represents⟩⟩
  · exact ⟨rfl, .inl ⟨admin, fresh⟩⟩
  · exact ⟨log, .inl ⟨admin', stillFresh⟩⟩

end Uninitialised

/-! ## The induction rule -/

section Rule

variable {E : Type} {around : Surroundings E}
variable {permitted : Context → Call → Storage → Prop}

/-- A property of clock, book, tokens and log that every step of a run keeps. -/
structure Invariant (around : Surroundings E)
    (permitted : Context → Call → Storage → Prop)
    (Inv : UInt64 → Book → E → List Event → Prop) : Prop where
  wait : ∀ {now later book e log}, Inv now book e log → now ≤ later →
    Inv later book e log
  drift : ∀ {now book e e' log}, Inv now book e log → around.drift e e' →
    Inv now book e' log
  change : ∀ {now book e log context call storage requests events book' e'},
    Inv now book e log → now ≤ context.blocktime →
    Represents storage book → permitted context call storage →
    Change context book call requests events book' →
    Answers around.answer requests e e' →
    Inv context.blocktime book' e' (log ++ events)

variable {Inv : UInt64 → Book → E → List Event → Prop}

theorem Invariant.and {Inv' : UInt64 → Book → E → List Event → Prop}
    (first : Invariant around permitted Inv) (second : Invariant around permitted Inv') :
    Invariant around permitted fun now book e log =>
      Inv now book e log ∧ Inv' now book e log where
  wait := fun both le => ⟨first.wait both.1 le, second.wait both.2 le⟩
  drift := fun both drifts => ⟨first.drift both.1 drifts, second.drift both.2 drifts⟩
  change := fun both le represents allowed change answered =>
    ⟨first.change both.1 le represents allowed change answered,
      second.change both.2 le represents allowed change answered⟩

theorem Invariant.all {ι : Type} {Inv : ι → UInt64 → Book → E → List Event → Prop}
    (each : ∀ i, Invariant around permitted (Inv i)) :
    Invariant around permitted fun now book e log => ∀ i, Inv i now book e log where
  wait := fun all le i => (each i).wait (all i) le
  drift := fun all drifts i => (each i).drift (all i) drifts
  change := fun all le represents allowed change answered i =>
    (each i).change (all i) le represents allowed change answered

/-- An invariant that holds at an initialised moment holds at every later
moment of a run. -/
theorem Run.represented (invariant : Invariant around permitted Inv)
    {first moment : Moment E} {book : Book}
    (represents : Represents first.world.storage book)
    (initially : Inv first.now book first.world.outside first.world.log)
    (run : Run around permitted first moment) :
    ∃ book, Represents moment.world.storage book ∧
      Inv moment.now book moment.world.outside moment.world.log := by
  induction run with
  | start => exact ⟨book, represents, initially⟩
  | wait _ le ih =>
      obtain ⟨book, represents, holds⟩ := ih
      exact ⟨book, represents, invariant.wait holds le⟩
  | drift _ drifts ih =>
      obtain ⟨book, represents, holds⟩ := ih
      exact ⟨book, represents, invariant.drift holds drifts⟩
  | call _ le allowed success ih =>
      obtain ⟨book, represents, holds⟩ := ih
      obtain ⟨book', requests, events, change, represents', log, answered⟩ :=
        change_of_runs represents success
      refine ⟨book', represents', ?_⟩
      rw [log]
      exact invariant.change holds le represents allowed change answered

/-- From the installation on, the contract is either still uninitialised or
represented by a book for which the invariant holds. -/
theorem Run.from_installed (invariant : Invariant around permitted Inv)
    (initially : ∀ now admin selfHash e, Inv now (.empty admin selfHash) e [])
    {admin : AccountHash} {now : UInt64} {outside : E} {moment : Moment E}
    (run : Run around permitted (installed admin now outside) moment) :
    (moment.world.log = [] ∧ ∃ admin', moment.world.storage = .installed admin') ∨
      ∃ book, Represents moment.world.storage book ∧
        Inv moment.now book moment.world.outside moment.world.log := by
  induction run with
  | start => exact .inl ⟨rfl, admin, rfl⟩
  | wait _ le ih =>
      rcases ih with fresh | ⟨book, represents, holds⟩
      · exact .inl fresh
      · exact .inr ⟨book, represents, invariant.wait holds le⟩
  | drift _ drifts ih =>
      rcases ih with fresh | ⟨book, represents, holds⟩
      · exact .inl fresh
      · exact .inr ⟨book, represents, invariant.drift holds drifts⟩
  | @call moment context call w _ le allowed success ih =>
      rcases ih with ⟨log, admin', fresh⟩ | ⟨book, represents, holds⟩
      · obtain ⟨sameLog, stillFresh | ⟨selfHash, represents⟩⟩ :=
          runs_installed fresh success
        · exact .inl ⟨sameLog.trans log, stillFresh⟩
        · refine .inr ⟨_, represents, ?_⟩
          change Inv context.blocktime _ w.outside w.log
          rw [sameLog, log]
          exact initially _ _ _ _
      · obtain ⟨book', requests, events, change, represents', sameLog, answered⟩ :=
          change_of_runs represents success
        refine .inr ⟨book', represents', ?_⟩
        change Inv context.blocktime book' w.outside w.log
        rw [sameLog]
        exact invariant.change holds le represents allowed change answered

end Rule

/-- In every state of a run the contract is uninitialised or represented by a
book. -/
theorem Run.represents {E : Type} {around : Surroundings E}
    {permitted : Context → Call → Storage → Prop} {admin : AccountHash} {now : UInt64}
    {outside : E} {moment : Moment E}
    (run : Run around permitted (installed admin now outside) moment) :
    (∃ admin', moment.world.storage = .installed admin') ∨
      ∃ book, Represents moment.world.storage book := by
  have always : Invariant around permitted fun _ _ _ _ => True :=
    ⟨fun _ _ => trivial, fun _ _ => trivial, fun _ _ _ _ _ _ => trivial⟩
  rcases run.from_installed always (fun _ _ _ _ => trivial) with
    ⟨-, fresh⟩ | ⟨book, represents, -⟩
  · exact .inl fresh
  · exact .inr ⟨book, represents⟩

theorem Run.trans {E : Type} {around : Surroundings E}
    {permitted : Context → Call → Storage → Prop} {first moment later : Moment E}
    (run : Run around permitted first moment) (onward : Run around permitted moment later) :
    Run around permitted first later := by
  induction onward with
  | start => exact run
  | wait _ le ih => exact ih.wait le
  | drift _ drifts ih => exact ih.drift drifts
  | call _ le allowed success ih => exact ih.call le allowed success

theorem Run.weaken {E : Type} {around : Surroundings E}
    {permitted permitted' : Context → Call → Storage → Prop}
    (weaker : ∀ context call storage, permitted context call storage →
      permitted' context call storage)
    {first moment : Moment E} (run : Run around permitted first moment) :
    Run around permitted' first moment := by
  induction run with
  | start => exact .start
  | wait _ le ih => exact ih.wait le
  | drift _ drifts ih => exact ih.drift drifts
  | call _ le allowed success ih => exact ih.call le (weaker _ _ _ allowed) success

theorem Run.log_extends {E : Type} {around : Surroundings E}
    {permitted : Context → Call → Storage → Prop} {first moment : Moment E}
    (run : Run around permitted first moment) :
    ∃ more, moment.world.log = first.world.log ++ more := by
  induction run with
  | start => exact ⟨[], by simp⟩
  | wait _ _ ih => exact ih
  | drift _ _ ih => exact ih
  | call _ _ _ success ih =>
      obtain ⟨earlier, log⟩ := ih
      obtain ⟨later, extended⟩ := success.log_extends
      exact ⟨earlier ++ later, by rw [extended, log, List.append_assoc]⟩

/-! ## Replaying a list of calls -/

section Replay

variable {E : Type} (answer : TokenCall → E → Except Failure E)
variable (permitted : Context → Call → Storage → Prop)
variable [∀ context call storage, Decidable (permitted context call storage)]

/-- Execute calls one after the other; `none` when one comes too early, is not
permitted or fails. -/
def replay : List (Context × Call) → Moment E → Option (Moment E)
  | [], moment => some moment
  | (context, entry) :: rest, moment =>
      if moment.now ≤ context.blocktime ∧
          permitted context entry moment.world.storage then
        ((entry.program context).exec (quietly answer) moment.world).bind fun result =>
          replay rest { now := context.blocktime, world := result.2 }
      else
        none

variable {answer permitted}

/-- A replay is a run among tokens that answer the same. -/
theorem Run.replayed {drift : E → E → Prop} {calls : List (Context × Call)}
    {first moment moment' : Moment E}
    (run : Run { answer := fun c e e' => answer c e = .ok e', drift } permitted first
      moment)
    (success : replay answer permitted calls moment = some moment') :
    Run { answer := fun c e e' => answer c e = .ok e', drift } permitted first
      moment' := by
  induction calls generalizing moment with
  | nil =>
      simp only [replay, Option.some.injEq] at success
      exact success ▸ run
  | cons head rest ih =>
      obtain ⟨context, entry⟩ := head
      simp only [replay] at success
      split at success
      · rename_i possible
        obtain ⟨⟨⟨⟩, w⟩, evaluated, later⟩ := Option.bind_eq_some_iff.mp success
        have called : Runs (Quiet fun c e e' => answer c e = .ok e')
            (entry.program context) moment.world () w :=
          runs_of_exec (fun _ _ _ => quiet_of_quietly) evaluated
        exact ih (run.call possible.1 possible.2 called) later
      · cases success

end Replay

/-! ## Names for concrete runs -/

namespace Sample

def owner : AccountHash := ⟨.filled 1⟩

def staker (number : UInt8) : AccountHash := ⟨.filled (number + 16)⟩

def tokenA : ContractHash := ⟨.filled 2⟩

def tokenB : ContractHash := ⟨.filled 3⟩

def package : ContractPackageHash := ⟨.filled 4⟩

/-- `amount` as an argument of a call. -/
def units (amount : UInt64) : U256 := .ofUInt64 amount

/-- Tokens that only answer requests. -/
def around : Surroundings Erc20Ledger where
  answer := fun c e e' => Erc20Ledger.answer package c e = .ok e'
  drift := fun e e' => e' = e

/-- The contract as installed by the owner. -/
def opening : Moment Erc20Ledger := installed owner 0 (.endowed 1000000)

def initialised : Moment Erc20Ledger where
  now := 0
  world := {
    storage := .initialised owner package
    outside := .endowed 1000000
    log := [] }

def setUp : UInt64 × AccountHash × Call := (0, owner, .init package)

/-- The first pool the owner creates, with both tokens the same. -/
def firstPool (startTime endTime : UInt64) (totalReward : U256) : StakePool where
  id := 0
  lastRewardTimestamp := 0
  stakingToken := tokenA
  rewardToken := tokenA
  startTime := startTime
  endTime := endTime
  precision := 18
  owner := owner
  totalReward := totalReward
  accTokenPerShare := U256.zero
  totalStaked := U256.zero

def usual : StakePool := firstPool 100 200 (units 1000)

section After

variable (permitted : Context → Call → Storage → Prop)
variable [∀ context call storage, Decidable (permitted context call storage)]
variable (calls : List (UInt64 × AccountHash × Call)) (first : Moment Erc20Ledger)

/-- The replay of the calls, each with its block time and its caller. -/
@[irreducible] def replayed : Option (Moment Erc20Ledger) :=
  replay (Erc20Ledger.answer package) permitted
    (calls.map fun (blocktime, caller, entry) => ({ caller, blocktime }, entry)) first

def after (success : (replayed permitted calls first).isSome) : Moment Erc20Ledger :=
  (replayed permitted calls first).get success

variable {permitted calls first}

theorem run_after (success : (replayed permitted calls first).isSome) :
    Run around permitted first (after permitted calls first success) := by
  have replays : replayed permitted calls first = some (after permitted calls first success) :=
    (Option.some_get success).symm
  unfold replayed at replays
  exact Run.start.replayed replays

theorem runs_after {blocktime : UInt64} {caller : AccountHash} {entry : Call}
    (success : (replayed permitted [(blocktime, caller, entry)] first).isSome) :
    Runs (Quiet around.answer) (entry.program { caller, blocktime }) first.world ()
      (after permitted [(blocktime, caller, entry)] first success).world := by
  obtain ⟨moment, replays⟩ := Option.isSome_iff_exists.mp success
  have same : after permitted [(blocktime, caller, entry)] first success = moment := by
    simp [after, replays]
  rw [same]
  simp only [replayed, List.map_cons, List.map_nil, replay] at replays
  split at replays
  · obtain ⟨⟨⟨⟩, w⟩, evaluated, ⟨⟩⟩ := Option.bind_eq_some_iff.mp replays
    exact runs_of_exec (fun _ _ _ => quiet_of_quietly) evaluated
  · cases replays

end After

def poolOf (poolId : UInt64) (moment : Moment Erc20Ledger)
    (stored : (getPool poolId moment.world.storage).toOption.isSome) : StakePool :=
  (getPool poolId moment.world.storage).toOption.get stored

theorem read_poolOf {poolId : UInt64} {moment : Moment Erc20Ledger}
    (stored : (getPool poolId moment.world.storage).toOption.isSome) :
    getPool poolId moment.world.storage = .ok (poolOf poolId moment stored) := by
  cases read : getPool poolId moment.world.storage with
  | error error => simp [read, Except.toOption] at stored
  | ok pool => simp [poolOf, read, Except.toOption]

end Sample

end CasperContracts.Staking
