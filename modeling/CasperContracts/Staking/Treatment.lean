import CasperContracts.Staking.Trace

/-!
# Equal treatment

The accumulator an account sees at a block time is the same for everyone: once
a pool has been brought up to a time, nothing that happens at that time credits
it again, neither a change of its stake nor one of its end.  So two accounts
that make the same calls at the same times get the same, as long as each is the
only one to use its record.
-/

namespace CasperContracts.Staking

open CasperContracts.Basis Host Prog

/-- There is nothing left to credit at `now`, whatever is staked. -/
def StakePool.CaughtUp (pool : StakePool) (now : UInt64) : Prop :=
  now ≤ pool.lastRewardTimestamp ∨ pool.endTime < pool.lastRewardTimestamp

section CaughtUp

variable {now : UInt64} {pool pool' accrued : StakePool} {credit : Option Credit}

theorem StakePool.CaughtUp.not_credits (caughtUp : pool.CaughtUp now) :
    ¬ pool.CreditsAt now := by
  intro credits
  rcases caughtUp with recent | ended
  · exact absurd credits.1 (UInt64.not_lt.mpr recent)
  · exact absurd ended (UInt64.not_lt.mpr credits.2.2.2)

theorem Accrual.caughtUp (accrual : Accrual now pool accrued credit) :
    accrued.CaughtUp now := by
  cases accrual with
  | kept settled =>
      rcases settled with recent | ⟨-, -, -, ended⟩
      · exact .inl recent
      · exact .inr ended
  | idle => exact .inl (UInt64.le_refl _)
  | credited => exact .inl (UInt64.le_refl _)

variable {context : Context} {selfHash : ContractPackageHash} {poolId : UInt64}
  {members members' : Members} {call : Call} {events : List Event}

/-- What an account has seen at a time stays in force for that time. -/
theorem PoolChange.caughtUp
    (change : PoolChange context selfHash poolId pool members call events pool' members')
    (caughtUp : pool.CaughtUp context.blocktime) :
    pool'.accTokenPerShare.toNat = pool.accTokenPerShare.toNat ∧
      pool'.CaughtUp context.blocktime := by
  cases change with
  | settle accrual =>
      exact ⟨accrual.acc_of_not_credits caughtUp.not_credits, accrual.caughtUp⟩
  | emergencyWithdraw => exact ⟨rfl, caughtUp⟩
  | stopReward accrual owner running =>
      refine ⟨accrual.acc_of_not_credits caughtUp.not_credits, .inl ?_⟩
      have last := UInt64.le_iff_toNat_le.mpr accrual.last_le
      rcases caughtUp with recent | ended
      · exact UInt64.le_trans recent last
      · exact UInt64.le_trans (UInt64.le_of_lt (UInt64.lt_trans running ended)) last

theorem PoolChange.caughtUp_of_settles
    (change : PoolChange context selfHash poolId pool members call events pool' members')
    (settles : call.settles = some poolId)
    (stays : ∀ other, call ≠ .emergencyWithdraw other) :
    pool'.CaughtUp context.blocktime := by
  cases change with
  | settle accrual => exact accrual.caughtUp
  | emergencyWithdraw => exact absurd rfl (stays poolId)
  | stopReward => cases settles

end CaughtUp

section Invariant

variable {E : Type} {poolId : UInt64} {steps : List (StakeStep E)} {step : StakeStep E}

/-- A deposit into the pool or a withdrawal from it. -/
def SeesAcc (poolId : UInt64) (step : StakeStep E) : Prop :=
  step.entry.settles = some poolId ∧ ∀ other, step.entry ≠ .emergencyWithdraw other

/-- What the steps since `book₀` have in common with the state they lead to. -/
structure Treated (poolId : UInt64) (pool₀ : StakePool) (book₀ : Book)
    (steps : List (StakeStep E)) (now : UInt64) (book : Book) (pool : StakePool) :
    Prop where
  aged : Aged pool₀ pool
  past : ∀ s ∈ steps, s.context.blocktime ≤ now
  agree : ∀ s ∈ steps, ∀ s' ∈ steps, SeesAcc poolId s → SeesAcc poolId s' →
    s.context.blocktime = s'.context.blocktime → accAfter poolId s = accAfter poolId s'
  present : ∀ s ∈ steps, SeesAcc poolId s → s.context.blocktime = now →
    accAfter poolId s = pool.accTokenPerShare.toNat ∧ pool.CaughtUp now
  chains : ∀ account, SoleUser account poolId steps →
    OwnChain poolId pool₀.scale (book₀.user (recordKey account poolId))
      (ownSteps account poolId steps) (book.user (recordKey account poolId))

variable {pool₀ pool pool' : StakePool} {book₀ book book' : Book} {now later : UInt64}

theorem Aged.scale_eq (aged : Aged pool₀ pool) : pool.scale = pool₀.scale := by
  have same : pool.precision = pool₀.precision := congrArg Terms.precision aged.terms
  rw [StakePool.scale, StakePool.scale, same]

theorem Treated.wait (treated : Treated poolId pool₀ book₀ steps now book pool)
    (le : now ≤ later) : Treated poolId pool₀ book₀ steps later book pool :=
  { treated with
    past := fun s member => UInt64.le_trans (treated.past s member) le
    present := by
      intro s member sees atLater
      have same : now = later :=
        UInt64.le_antisymm le (atLater ▸ treated.past s member)
      subst same
      exact treated.present s member sees atLater }

private theorem agree_snoc
    (agree : ∀ s ∈ steps, ∀ s' ∈ steps, SeesAcc poolId s → SeesAcc poolId s' →
      s.context.blocktime = s'.context.blocktime → accAfter poolId s = accAfter poolId s')
    (last : ∀ s ∈ steps, SeesAcc poolId s → SeesAcc poolId step →
      s.context.blocktime = step.context.blocktime →
      accAfter poolId s = accAfter poolId step) :
    ∀ s ∈ steps ++ [step], ∀ s' ∈ steps ++ [step], SeesAcc poolId s → SeesAcc poolId s' →
      s.context.blocktime = s'.context.blocktime →
      accAfter poolId s = accAfter poolId s' := by
  intro s member s' member' sees sees' sameTime
  rcases List.mem_append.mp member with earlier | isLast
  · rcases List.mem_append.mp member' with earlier' | isLast'
    · exact agree s earlier s' earlier' sees sees' sameTime
    · cases List.mem_singleton.mp isLast'
      exact last s earlier sees sees' sameTime
  · cases List.mem_singleton.mp isLast
    rcases List.mem_append.mp member' with earlier' | isLast'
    · exact (last s' earlier' sees' sees sameTime.symm).symm
    · cases List.mem_singleton.mp isLast'
      rfl

variable {requests : List TokenCall} {events : List Event}

theorem changed_of_settles
    (change : Change step.context book step.entry requests events book')
    (settles : step.entry.settles = some poolId)
    (sameMembers : book'.members poolId = book.members poolId) : False := by
  have sameUser : book'.user (recordKey step.context.caller poolId) =
      book.user (recordKey step.context.caller poolId) := by
    rw [recordKey, Book.user_eq, Book.user_eq, sameMembers]
  rcases (change.user_eq_iff _).mp sameUser with different | notSettling
  · exact different rfl
  · exact notSettling settles

/-- A step after which the accumulator of its time is known. -/
private theorem Treated.next (treated : Treated poolId pool₀ book₀ steps now book pool)
    (le : now ≤ step.context.blocktime)
    (change : Change step.context book step.entry requests events book')
    (represents' : Represents step.after.storage book')
    (log : step.after.log = step.before.log ++ events)
    (found' : book'.pool poolId = some pool') (aged : Aged pool pool')
    (keeps : pool.CaughtUp step.context.blocktime →
      pool'.accTokenPerShare.toNat = pool.accTokenPerShare.toNat ∧
        pool'.CaughtUp step.context.blocktime)
    (sees : SeesAcc poolId step → accAfter poolId step = pool'.accTokenPerShare.toNat ∧
      pool'.CaughtUp step.context.blocktime) :
    Treated poolId pool₀ book₀ (steps ++ [step]) step.context.blocktime book' pool' := by
  have present : ∀ s ∈ steps, SeesAcc poolId s →
      s.context.blocktime = step.context.blocktime →
      accAfter poolId s = pool'.accTokenPerShare.toNat ∧
        pool'.CaughtUp step.context.blocktime := by
    intro s member seesAcc sameTime
    have same : now = step.context.blocktime :=
      UInt64.le_antisymm le (sameTime ▸ treated.past s member)
    subst same
    obtain ⟨seen, caughtUp⟩ := treated.present s member seesAcc sameTime
    obtain ⟨sameAcc, stillCaughtUp⟩ := keeps caughtUp
    exact ⟨seen.trans sameAcc.symm, stillCaughtUp⟩
  exact {
    aged := treated.aged.trans aged
    past := by
      intro s member
      rcases List.mem_append.mp member with earlier | isLast
      · exact UInt64.le_trans (treated.past s earlier) le
      · cases List.mem_singleton.mp isLast
        exact UInt64.le_refl _
    agree := agree_snoc treated.agree fun s member seesAcc seesLast sameTime =>
      (present s member seesAcc sameTime).1.trans (sees seesLast).1.symm
    present := by
      intro s member seesAcc sameTime
      rcases List.mem_append.mp member with earlier | isLast
      · exact present s earlier seesAcc sameTime
      · cases List.mem_singleton.mp isLast
        exact sees seesAcc
    chains := by
      intro account sole
      refine (treated.chains account sole.earlier).next change represents' log ?_ sole
      intro other isOther
      rw [found', Option.some.injEq] at isOther
      exact isOther ▸ (treated.aged.trans aged).scale_eq }

/-- Every call keeps what the steps have in common, unless it creates the pool
again. -/
theorem Treated.call (treated : Treated poolId pool₀ book₀ steps now book pool)
    (found : book.pool poolId = some pool) (le : now ≤ step.context.blocktime)
    (change : Change step.context book step.entry requests events book')
    (represents' : Represents step.after.storage book')
    (log : step.after.log = step.before.log ++ events)
    (notAgain : createdUnder poolId events = []) :
    ∃ pool', book'.pool poolId = some pool' ∧
      Treated poolId pool₀ book₀ (steps ++ [step]) step.context.blocktime book' pool' := by
  rcases change.on_pool found notAgain with
    ⟨-, stillFound, sameMembers⟩ | ⟨pool', -, -, found', poolChange⟩
  · refine ⟨pool, stillFound, treated.next le change represents' log stillFound .refl
      (fun caughtUp => ⟨rfl, caughtUp⟩) fun sees => ?_⟩
    exact (changed_of_settles change sees.1 sameMembers).elim
  · refine ⟨pool', found', treated.next le change represents' log found' poolChange.aged
      poolChange.caughtUp fun sees => ?_⟩
    obtain ⟨pool'', valid, foundAgain, -⟩ := change.own sees.1
    exact ⟨accAfter_eq represents' valid found',
      poolChange.caughtUp_of_settles sees.1 sees.2⟩

/-- The steps of a history have this in common, as long as the pool is not created
again. -/
theorem treated_traced (around : Surroundings E)
    (permitted : Context → Call → Storage → Prop) (poolId : UInt64) (pool₀ : StakePool)
    (book₀ : Book) (log₀ : List Event) :
    (bookModel around permitted).Traced fun steps now book _ log =>
      (∃ more, log = log₀ ++ more) ∧ (createdUnder poolId log = createdUnder poolId log₀ →
        ∃ pool, book.pool poolId = some pool ∧
          Treated poolId pool₀ book₀ steps now book pool) where
  wait := by
    intro steps now later book e log kept le
    refine ⟨kept.1, fun once => ?_⟩
    obtain ⟨pool, found, treated⟩ := kept.2 once
    exact ⟨pool, found, treated.wait le⟩
  drift := fun kept _ => kept
  change := by
    intro steps now context entry requests events book book' w w' kept le represents
      allowed _ change represents' log answered
    obtain ⟨⟨more, before⟩, alive⟩ := kept
    rw [log]
    refine ⟨⟨more ++ events, by rw [before, List.append_assoc]⟩, fun once => ?_⟩
    have parts : createdUnder poolId more = [] ∧ createdUnder poolId events = [] := by
      simpa [before] using once
    obtain ⟨pool, found, treated⟩ := alive (by simp [before, parts.1])
    exact treated.call found le change represents' log parts.2

end Invariant

section Runs

variable {E : Type} {around : Surroundings E} {admin : AccountHash} {start now : UInt64}
variable {outside : E} {moment : Moment E} {w : StakeWorld E}
  {steps : List (StakeStep E)} {poolId : UInt64}

/-- The steps of a part of a run on a pool have their accumulators in common. -/
theorem treated_of_history {created pool₀ : StakePool}
    (run : Run around unrestricted (installed admin start outside) moment)
    (history : History (around.setting unrestricted) moment.now moment.world steps now w)
    (once : createdUnder poolId w.log = [created])
    (read : getPool poolId moment.world.storage = .ok pool₀) :
    ∃ book₀ book pool, Represents moment.world.storage book₀ ∧
      Represents w.storage book ∧ book.pool poolId = some pool ∧
      Treated poolId pool₀ book₀ steps now book pool := by
  rcases run.represents with ⟨admin', fresh⟩ | ⟨book₀, represents⟩
  · rw [fresh] at read
    exact absurd read getPool_installed
  obtain ⟨-, found⟩ := represents.getPool_eq_ok.mp read
  have born : createdUnder poolId moment.world.log ≠ [] :=
    fun none => (run.unborn none).1 pool₀ read
  have before := (run_of_history history).created_earlier once born
  have initially : Treated poolId pool₀ book₀ ([] : List (StakeStep E)) moment.now book₀
      pool₀ := {
    aged := .refl
    past := by simp
    agree := by simp
    present := by simp
    chains := fun account _ => .nil _ }
  obtain ⟨book, represents', -, alive⟩ :=
    history.represented (treated_traced around unrestricted poolId pool₀ book₀
      moment.world.log) represents ⟨⟨[], by simp⟩, fun _ => ⟨pool₀, found, initially⟩⟩
  obtain ⟨pool, found', treated⟩ := alive (once.trans before.symm)
  exact ⟨book₀, book, pool, represents, represents', found', treated⟩

/-- Two accounts that start with the same record, and are the only ones to settle
it, get the same rewards and the same records at each of their calls when they make
the same calls at the same block times, whatever happens in between. -/
theorem equal_treatment {created pool₀ : StakePool} {one other : AccountHash}
    {user : UserInfo} {time : UInt64}
    (run : Run around unrestricted (installed admin start outside) moment)
    (history : History (around.setting unrestricted) moment.now moment.world steps now w)
    (once : createdUnder poolId w.log = [created])
    (read : getPool poolId moment.world.storage = .ok pool₀)
    (readOne : getUserInfoForPool { caller := one, blocktime := time } poolId
      moment.world.storage = .ok user)
    (readOther : getUserInfoForPool { caller := other, blocktime := time } poolId
      moment.world.storage = .ok user)
    (soleOne : SoleUser one poolId steps) (soleOther : SoleUser other poolId steps)
    (same : (ownSteps one poolId steps).map asked =
      (ownSteps other poolId steps).map asked) :
    (ownSteps one poolId steps).map (got poolId) =
      (ownSteps other poolId steps).map (got poolId) := by
  obtain ⟨book₀, book, pool, represents, -, -, treated⟩ :=
    treated_of_history run history once read
  have isOne := (represents.getUserInfoForPool_eq_ok.mp readOne).2
  have isOther := (represents.getUserInfoForPool_eq_ok.mp readOther).2
  have chainOne := treated.chains one soleOne
  have chainOther := treated.chains other soleOther
  change book₀.user (recordKey one poolId) = user at isOne
  change book₀.user (recordKey other poolId) = user at isOther
  rw [isOne] at chainOne
  rw [isOther] at chainOther
  have agree : Agree poolId (ownSteps one poolId steps) (ownSteps other poolId steps) := by
    intro s member s' member' stays stays' sameTime
    obtain ⟨inSteps, own⟩ := List.mem_filter.mp member
    obtain ⟨inSteps', own'⟩ := List.mem_filter.mp member'
    simp only [decide_eq_true_eq] at own own'
    exact treated.agree s inSteps s' inSteps' ⟨own.2, stays⟩ ⟨own'.2, stays'⟩ sameTime
  exact (chainOne.same_of_asked agree chainOther same).1

end Runs

section Sample

open Sample

/-- Two stakers make the same calls, while a third one comes and goes. -/
def alike : List (StakeStep Erc20Ledger) × StakeWorld Erc20Ledger :=
  traced
    [(20, staker 1, .deposit (units 10) 0), (20, staker 2, .deposit (units 10) 0),
      (120, staker 3, .deposit (units 7) 0), (150, staker 2, .withdraw (units 4) 0),
      (150, staker 3, .emergencyWithdraw 0), (150, staker 1, .withdraw (units 4) 0)]
    young (by decide +kernel)

private theorem history_alike : ∃ later,
    History (around.setting unrestricted) young.now young.world alike.1 later alike.2 :=
  history_traced _

private theorem alike_comparable : createdUnder 0 alike.2.log = [usual] ∧
    SoleUser (staker 1) 0 alike.1 ∧ SoleUser (staker 2) 0 alike.1 ∧
    (ownSteps (staker 1) 0 alike.1).map asked = (ownSteps (staker 2) 0 alike.1).map asked := by
  decide +kernel

theorem equal_treatment_alike :
    (ownSteps (staker 1) 0 alike.1).map (got 0) =
      (ownSteps (staker 2) 0 alike.1).map (got 0) := by
  obtain ⟨later, history⟩ := history_alike
  obtain ⟨once, soleOne, soleOther, same⟩ := alike_comparable
  have read : getPool 0 young.world.storage = .ok usual := by decide +kernel
  have noRecord : ∀ number ∈ [1, 2],
      getUserInfoForPool { caller := staker number, blocktime := 20 } 0
        young.world.storage = .ok UserInfo.default := by
    decide +kernel
  exact equal_treatment run_young history once read (noRecord 1 (by simp))
    (noRecord 2 (by simp)) soleOne soleOther same

/-- Without the third one, but with an account whose printed hash begins like that
of the first. -/
def confused : List (StakeStep Erc20Ledger) × StakeWorld Erc20Ledger :=
  traced
    [(20, staker 1, .deposit (units 10) 0), (20, staker 2, .deposit (units 10) 0),
      (120, lookalike, .withdraw (units 5) 0), (150, staker 2, .withdraw (units 4) 0),
      (150, staker 1, .withdraw (units 4) 0)]
    young (by decide +kernel)

private theorem history_confused : ∃ later,
    History (around.setting unrestricted) young.now young.world confused.1 later
      confused.2 :=
  history_traced _

/-- Accounts with different prefixes, no records and the same calls get different
things. -/
private theorem confused_differs : createdUnder 0 confused.2.log = [usual] ∧
    (staker 1).keyPrefix ≠ (staker 2).keyPrefix ∧
    (∀ account ∈ [staker 1, staker 2],
      getUserInfoForPool { caller := account, blocktime := 20 } 0 young.world.storage =
        .ok UserInfo.default) ∧
    (ownSteps (staker 1) 0 confused.1).map asked =
      (ownSteps (staker 2) 0 confused.1).map asked ∧
    (ownSteps (staker 1) 0 confused.1).map (got 0) ≠
      (ownSteps (staker 2) 0 confused.1).map (got 0) := by
  decide +kernel

/-- An account that shares the record of one of two changes what it gets. -/
theorem unequal_treatment :
    ¬ ∀ moment, Run around unrestricted opening moment → ∀ steps now w,
      History (around.setting unrestricted) moment.now moment.world steps now w →
      ∀ poolId created, createdUnder poolId w.log = [created] →
      ∀ one other time, one.keyPrefix ≠ other.keyPrefix →
      (∀ account, account = one ∨ account = other →
        getUserInfoForPool { caller := account, blocktime := time } poolId
          moment.world.storage = .ok UserInfo.default) →
      (ownSteps one poolId steps).map asked = (ownSteps other poolId steps).map asked →
      (ownSteps one poolId steps).map (got poolId) =
        (ownSteps other poolId steps).map (got poolId) := by
  intro claim
  obtain ⟨later, history⟩ := history_confused
  obtain ⟨once, different, noRecord, same, unequal⟩ := confused_differs
  refine unequal (claim young run_young confused.1 later confused.2 history 0 usual once
    (staker 1) (staker 2) 20 different (fun account either => noRecord account ?_) same)
  simpa using either

end Sample

end CasperContracts.Staking
