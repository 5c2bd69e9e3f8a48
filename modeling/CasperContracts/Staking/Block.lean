import CasperContracts.Staking.Trace

/-!
# The calls of one block

Deposits and withdrawals that are executed at one block time all see the pool
as the first of them has left it: its update finds everything there is to
credit, and every later one finds nothing.  So an account is paid what was
pending for it before the block, however it splits its calls, and the order in
which the accounts take turns does not matter.
-/

namespace CasperContracts.Staking

open CasperContracts.Basis Host Prog

/-! ## Updates at one time -/

section Update

variable {now : UInt64} {pool accrued accrued' : StakePool} {credit credit' : Option Credit}

theorem Accrual.unique (accrual : Accrual now pool accrued credit)
    (accrual' : Accrual now pool accrued' credit') : accrued' = accrued := by
  have sameAcc : accrued'.accTokenPerShare = accrued.accTokenPerShare :=
    U256.toNat_injective (accrual.acc_unique accrual')
  cases accrual with
  | kept settled =>
      cases accrual' with
      | kept => rfl
      | idle later nothing =>
          rcases settled with recent | ⟨-, staked, started, -⟩
          · exact absurd later (UInt64.not_lt.mpr recent)
          · rcases nothing with none | early
            · exact absurd none staked
            · exact absurd early (UInt64.not_lt.mpr started)
      | credited reaches =>
          rcases settled with recent | ⟨-, -, -, ended⟩
          · exact absurd reaches.1 (UInt64.not_lt.mpr recent)
          · exact absurd ended (UInt64.not_lt.mpr reaches.2.2.2)
  | idle later nothing =>
      cases accrual' with
      | kept settled =>
          rcases settled with recent | ⟨-, staked, started, -⟩
          · exact absurd later (UInt64.not_lt.mpr recent)
          · rcases nothing with none | early
            · exact absurd none staked
            · exact absurd early (UInt64.not_lt.mpr started)
      | idle => rfl
      | credited reaches =>
          rcases nothing with none | early
          · exact absurd none reaches.2.1
          · exact absurd early (UInt64.not_lt.mpr reaches.2.2.1)
  | credited reaches =>
      cases accrual' with
      | kept settled =>
          rcases settled with recent | ⟨-, -, -, ended⟩
          · exact absurd reaches.1 (UInt64.not_lt.mpr recent)
          · exact absurd ended (UInt64.not_lt.mpr reaches.2.2.2)
      | idle later nothing =>
          rcases nothing with none | early
          · exact absurd none reaches.2.1
          · exact absurd early (UInt64.not_lt.mpr reaches.2.2.1)
      | credited =>
          change _ = _ at sameAcc
          simp only at sameAcc
          rw [sameAcc]

/-- A second update at the same time changes nothing, as long as the pool has not
been left empty after its end. -/
theorem Accrual.again {totalStaked : U256} (accrual : Accrual now pool accrued credit)
    (accrual' : Accrual now { accrued with totalStaked } accrued' credit')
    (alive : now ≤ accrued.endTime ∨ totalStaked.toNat ≠ 0) :
    accrued' = { accrued with totalStaked } := by
  cases accrual' with
  | kept => rfl
  | credited reaches => exact absurd reaches (accrual.not_credits totalStaked)
  | idle later nothing =>
      cases accrual with
      | idle => exact absurd later (UInt64.lt_irrefl _)
      | credited => exact absurd later (UInt64.lt_irrefl _)
      | kept settled =>
          rcases settled with recent | ⟨-, -, started, ended⟩
          · exact absurd later (UInt64.not_lt.mpr recent)
          · rcases nothing with none | early
            · rcases alive with notEnded | staked
              · exact absurd (UInt64.lt_trans ended later) (UInt64.not_lt.mpr notEnded)
              · exact absurd none staked
            · exact absurd early (UInt64.not_lt.mpr started)

end Update

/-! ## A settlement -/

/-- A deposit into a pool or a withdrawal from it. -/
def Call.trades (poolId : UInt64) : Call → Prop
  | .deposit _ other => other = poolId
  | .withdraw _ other => other = poolId
  | _ => False

instance (poolId : UInt64) : (call : Call) → Decidable (call.trades poolId)
  | .deposit _ other | .withdraw _ other => inferInstanceAs (Decidable (other = poolId))
  | .init _ | .addPool _ _ _ _ _ _ | .emergencyWithdraw _ | .stopReward _ | .saveMe _ _
  | .setAdmin _ => .isFalse id

section Settlement

variable {context : Context} {book book' : Book} {call : Call}
  {requests : List TokenCall} {events : List Event} {poolId : UInt64}

theorem Call.trades.settles (trades : call.trades poolId) :
    call.settles = some poolId ∧ ∃ amount,
      call = .deposit amount poolId ∨ call = .withdraw amount poolId := by
  cases call with
  | deposit amount other => cases trades; exact ⟨rfl, amount, .inl rfl⟩
  | withdraw amount other => cases trades; exact ⟨rfl, amount, .inr rfl⟩
  | _ => exact trades.elim

theorem Change.traded (change : Change context book call requests events book')
    (trades : call.trades poolId) :
    ∃ pool accrued credit totalStaked, poolId ≤ book'.index ∧
      book.pool poolId = some pool ∧ Accrual context.blocktime pool accrued credit ∧
      book'.pool poolId = some { accrued with totalStaked } ∧
      (totalStaked.toNat : ℤ) = pool.totalStaked.toNat + call.moves ∧
      (context.blocktime ≤ accrued.endTime ∨ pool.totalStaked.toNat ≠ 0) := by
  cases change with
  | @settle _ otherId pool accrued credit user' totalStaked _ _ valid found accrual settled
      debt staked =>
      have samePool : otherId = poolId := by
        have settles := trades.settles.1
        rw [settled.settles, Option.some.injEq] at settles
        exact settles
      subst samePool
      refine ⟨pool, accrued, credit, totalStaked, valid, found, accrual, by simp, ?_, ?_⟩
      · have moves := (settled.settlesAt debt).amount
        rw [accrual.totalStaked_eq] at staked
        omega
      · cases settled with
        | first nonzero opened => exact .inl opened
        | topUp nonzero opened => exact .inl opened
        | withdraw nonzero total =>
            rw [accrual.totalStaked_eq] at staked
            exact .inr (by omega)
  | addPool => exact trades.elim
  | emergencyWithdraw => exact trades.elim
  | stopReward => exact trades.elim
  | saveMe => exact trades.elim
  | setAdmin => exact trades.elim

end Settlement

/-! ## Steps at one time -/

section Steps

variable {E : Type} {poolId now : UInt64} {steps more : List (StakeStep E)}
  {step : StakeStep E}

/-- Deposits and withdrawals on the pool at one block time. -/
def BlockOf (poolId now : UInt64) (steps : List (StakeStep E)) : Prop :=
  ∀ step ∈ steps, step.context.blocktime = now ∧ step.entry.trades poolId

instance : Decidable (BlockOf poolId now steps) :=
  inferInstanceAs (Decidable (∀ step ∈ steps, _ ∧ _))

def movedIn (steps : List (StakeStep E)) : ℤ :=
  (steps.map fun step => step.entry.moves).sum

@[simp] theorem movedIn_append :
    movedIn (steps ++ more) = movedIn steps + movedIn more := by
  simp [movedIn]

structure InBlock (poolId now : UInt64) (pool₀ : StakePool) (book₀ : Book)
    (steps : List (StakeStep E)) (book : Book) : Prop where
  chains : ∀ account, SoleUser account poolId steps →
    OwnChain poolId pool₀.scale (book₀.user (recordKey account poolId))
      (ownSteps account poolId steps) (book.user (recordKey account poolId))
  valid : poolId ≤ book.index
  pool : (steps = [] ∧ book.pool poolId = some pool₀) ∨
    steps ≠ [] ∧ ∃ accrued credit totalStaked,
      updatedPool now pool₀ = .ok (accrued, credit) ∧
      book.pool poolId = some { accrued with totalStaked } ∧
      (totalStaked.toNat : ℤ) = pool₀.totalStaked.toNat + movedIn steps ∧
      ∀ s ∈ steps, accAfter poolId s = accrued.accTokenPerShare.toNat

variable {pool₀ : StakePool} {book₀ book book' : Book} {requests : List TokenCall}
  {events : List Event} {tokens : TokenCall → E → E → Prop}

private theorem InBlock.first {pool accrued : StakePool} {credit : Option Credit}
    (represents : Represents step.before.storage book)
    (found : book.pool poolId = some pool) (trades : step.entry.trades poolId)
    (success : Runs (Quiet tokens) (step.entry.program step.context) step.before ()
      step.after)
    (accrual : Accrual step.context.blocktime pool accrued credit) :
    ∃ credit, updatedPool step.context.blocktime pool = .ok (accrued, credit) := by
  obtain ⟨-, amount, settles⟩ := trades.settles
  obtain ⟨pool', accrued', credit', read, computed⟩ := updatedPool_of_settle settles success
  have same := (represents.getPool_eq_ok.mp read).2
  rw [found, Option.some.injEq] at same
  subst same
  exact ⟨credit', (accrual.unique (accrual_of_updatedPool computed)) ▸ computed⟩

theorem InBlock.next (inBlock : InBlock poolId now pool₀ book₀ steps book)
    (represents : Represents step.before.storage book)
    (success : Runs (Quiet tokens) (step.entry.program step.context) step.before ()
      step.after)
    (change : Change step.context book step.entry requests events book')
    (represents' : Represents step.after.storage book')
    (log : step.after.log = step.before.log ++ events)
    (time : step.context.blocktime = now) (trades : step.entry.trades poolId) :
    InBlock poolId now pool₀ book₀ (steps ++ [step]) book' := by
  obtain ⟨pool, accrued, credit, totalStaked, valid, found, accrual, found', total, alive⟩ :=
    change.traded trades
  have seen : accAfter poolId step = accrued.accTokenPerShare.toNat := by
    rw [accAfter_eq represents' valid found']
  have scale : accrued.scale = pool.scale := accrual.scale_eq
  rw [time] at accrual alive
  rcases inBlock.pool with
    ⟨none, found₀⟩ | ⟨-, accrued₀, credit₀, total₀, computed, found₀, sum, saw⟩
  · subst none
    rw [found, Option.some.injEq] at found₀
    subst found₀
    obtain ⟨credit', computed⟩ :=
      InBlock.first represents found trades success (time ▸ accrual)
    rw [time] at computed
    refine ⟨fun account sole => ?_, valid, .inr ⟨by simp, accrued, credit', totalStaked,
      computed, found', by simpa [movedIn] using total, by simpa using seen⟩⟩
    refine (inBlock.chains account sole.earlier).next change represents' log ?_ sole
    intro pool' isPool
    rw [found', Option.some.injEq] at isPool
    exact isPool ▸ scale
  · have accrual₀ := accrual_of_updatedPool computed
    rw [found, Option.some.injEq] at found₀
    subst found₀
    have same : accrued = { accrued₀ with totalStaked := total₀ } := by
      refine accrual₀.again accrual ?_
      rw [accrual.endTime_eq] at alive
      exact alive
    subst same
    refine ⟨fun account sole => ?_, valid, .inr ⟨by simp, accrued₀, credit₀, totalStaked,
      computed, found', ?_, ?_⟩⟩
    · refine (inBlock.chains account sole.earlier).next change represents' log ?_ sole
      intro pool' isPool
      rw [found', Option.some.injEq] at isPool
      exact isPool ▸ accrual₀.scale_eq
    · have last : movedIn [step] = step.entry.moves := by simp [movedIn]
      rw [movedIn_append, last, total]
      change (total₀.toNat : ℤ) + _ = _
      rw [sum, add_assoc]
    · intro s member
      rcases List.mem_append.mp member with earlier | isLast
      · exact saw s earlier
      · cases List.mem_singleton.mp isLast
        exact seen

/-- What a block has done so far is kept by its next call. -/
theorem inBlock_traced (around : Surroundings E)
    (permitted : Context → Call → Storage → Prop) (poolId now : UInt64)
    (pool₀ : StakePool) (book₀ : Book) :
    (bookModel around permitted).Traced fun steps _ book _ _ =>
      BlockOf poolId now steps → InBlock poolId now pool₀ book₀ steps book where
  wait := fun inBlock _ => inBlock
  drift := fun inBlock _ => inBlock
  change := by
    intro steps time context entry requests events book book' w w' kept le represents
      allowed success change represents' log answered block
    have earlier : BlockOf poolId now steps :=
      fun step member => block step (List.mem_append_left _ member)
    obtain ⟨atTime, trades⟩ := block _ (List.mem_append_right _ (List.mem_singleton_self _))
    exact (kept earlier).next represents success change represents' log atTime trades

end Steps

/-! ## The chain of an account within a block -/

section Chains

variable {E : Type} {poolId now : UInt64} {scale acc : Nat} {user last : UserInfo}
  {steps : List (StakeStep E)}

def rewardsOf (account : AccountHash) (poolId : UInt64) (steps : List (StakeStep E)) : Nat :=
  ((ownSteps account poolId steps).map rewardOf).sum

/-- All steps settle at one accumulator. -/
def AllAt (poolId : UInt64) (acc : Nat) (steps : List (StakeStep E)) : Prop :=
  ∀ step ∈ steps, accAfter poolId step = acc ∧
    ∀ other, step.entry ≠ .emergencyWithdraw other

theorem AllAt.tail {step : StakeStep E} (all : AllAt poolId acc (step :: steps)) :
    AllAt poolId acc steps :=
  fun s member => all s (List.mem_cons_of_mem _ member)

theorem OwnStep.settlesAt {step : StakeStep E} {user' : UserInfo} {reward : Nat}
    (own : OwnStep (accAfter poolId step) scale user user' step.entry reward)
    (all : AllAt poolId acc (step :: steps)) :
    SettlesAt acc scale user user' step.entry reward := by
  obtain ⟨sameAcc, stays⟩ := all step (List.mem_cons_self ..)
  rw [sameAcc] at own
  cases own with
  | settled _ settles => exact settles
  | left leaves => exact absurd leaves (stays _)

/-- The stake moves by what the steps move. -/
theorem OwnChain.amount_eq (chain : OwnChain poolId scale user steps last)
    (all : AllAt poolId acc steps) :
    (last.amount.toNat : ℤ) = user.amount.toNat + movedIn steps := by
  induction chain with
  | nil user => simp [movedIn]
  | @cons user user' last step steps own after rest ih =>
      have settles := own.settlesAt all
      have amount := settles.amount
      have later := ih all.tail
      have split : movedIn (step :: steps) = step.entry.moves + movedIn steps := by
        simp [movedIn]
      rw [split]
      omega

/-- A record that is settled already is paid nothing more. -/
theorem OwnChain.settled (chain : OwnChain poolId scale user steps last)
    (all : AllAt poolId acc steps)
    (debt : user.rewardDebt.toNat = user.amount.toNat * acc / scale) :
    (steps.map rewardOf).sum = 0 ∧
      last.rewardDebt.toNat = last.amount.toNat * acc / scale := by
  induction chain with
  | nil user => exact ⟨rfl, debt⟩
  | @cons user user' last step steps own after rest ih =>
      have settles := own.settlesAt all
      obtain ⟨nothingMore, lastDebt⟩ := ih all.tail settles.debt
      have nothing : rewardOf step = 0 := by
        have reward := settles.reward
        split at reward <;> omega
      exact ⟨by simp [nothing, nothingMore], lastDebt⟩

theorem OwnChain.rewards (chain : OwnChain poolId scale user steps last)
    (all : AllAt poolId acc steps) (someSteps : steps ≠ []) :
    ((steps.map rewardOf).sum : ℤ) = (if user.amount.toNat = 0 then 0 else
        ((user.amount.toNat * acc / scale : Nat) : ℤ) - user.rewardDebt.toNat) ∧
      last.rewardDebt.toNat = last.amount.toNat * acc / scale := by
  cases chain with
  | nil => exact absurd rfl someSteps
  | @cons _ user' _ step steps own after rest =>
      have settles := own.settlesAt all
      obtain ⟨nothingMore, lastDebt⟩ := rest.settled all.tail settles.debt
      refine ⟨?_, lastDebt⟩
      rw [List.map_cons, List.sum_cons, nothingMore, Nat.add_zero]
      exact settles.reward

end Chains

/-! ## Turns -/

section Turns

variable {E : Type} {poolId now : UInt64} {steps steps' : List (StakeStep E)}
  {account : AccountHash}

def turn (step : StakeStep E) : AccountHash × Call := (step.context.caller, step.entry)

/-- No two of the accounts share a record. -/
def DistinctUsers (steps : List (StakeStep E)) : Prop :=
  ∀ step ∈ steps, ∀ step' ∈ steps,
    step.context.caller.keyPrefix = step'.context.caller.keyPrefix →
      step.context.caller = step'.context.caller

instance : Decidable (DistinctUsers steps) :=
  inferInstanceAs (Decidable (∀ step ∈ steps, ∀ step' ∈ steps, _ → _))

/-- Every account takes its turns in the same order. -/
def SameTurns (steps steps' : List (StakeStep E)) : Prop :=
  ∀ account, (steps.map turn).filter (fun turn => turn.1 = account) =
    (steps'.map turn).filter fun turn => turn.1 = account

theorem SameTurns.perm (same : SameTurns steps steps') :
    (steps.map turn).Perm (steps'.map turn) := by
  rw [List.perm_iff_count]
  intro one
  have counts := congrArg (List.count one) (same one.1)
  rwa [List.count_filter (by simp), List.count_filter (by simp)] at counts

theorem SameTurns.movedIn_eq (same : SameTurns steps steps') :
    movedIn steps = movedIn steps' := by
  have moves : ∀ steps : List (StakeStep E),
      movedIn steps = ((steps.map turn).map fun turn => turn.2.moves).sum := by
    intro steps
    simp [movedIn, turn, Function.comp_def]
  rw [moves, moves]
  exact (same.perm.map _).sum_eq

theorem SameTurns.eq_nil_iff (same : SameTurns steps steps') : steps = [] ↔ steps' = [] := by
  have lengths := same.perm.length_eq
  simp only [List.length_map] at lengths
  rw [← List.length_eq_zero_iff, ← List.length_eq_zero_iff, lengths]

/-- In a block every step of an account is its own. -/
theorem BlockOf.asked_eq (block : BlockOf poolId now steps) :
    (ownSteps account poolId steps).map asked =
      ((steps.map turn).filter fun turn => turn.1 = account).map fun turn =>
        (turn.2, now) := by
  have own : ownSteps account poolId steps =
      steps.filter fun step => (turn step).1 = account := by
    apply List.filter_congr
    intro step member
    rw [decide_eq_decide]
    simp [turn, (block step member).2.settles.1]
  rw [own, List.filter_map, List.map_map]
  apply List.map_congr_left
  intro step member
  have inSteps := (List.mem_filter.mp member).1
  simp [asked, turn, (block step inSteps).1]

theorem DistinctUsers.sole (distinct : DistinctUsers steps)
    (participates : ∃ step ∈ steps, step.context.caller = account) :
    SoleUser account poolId steps := by
  obtain ⟨step, member, rfl⟩ := participates
  exact fun other isMember _ shared => distinct other isMember step member shared

end Turns

section Runs

variable {E : Type} {around : Surroundings E} {admin : AccountHash} {start now : UInt64}
variable {outside : E} {moment : Moment E} {w : StakeWorld E} {poolId time : UInt64}
  {steps : List (StakeStep E)} {pool₀ : StakePool} {book₀ book book' : Book}

private theorem inBlock_of_history (represents : Represents moment.world.storage book₀)
    (valid : poolId ≤ book₀.index) (found : book₀.pool poolId = some pool₀)
    (history : History (around.setting unrestricted) moment.now moment.world steps now w)
    (block : BlockOf poolId time steps) :
    ∃ book, Represents w.storage book ∧ InBlock poolId time pool₀ book₀ steps book := by
  have initially : InBlock poolId time pool₀ book₀ ([] : List (StakeStep E)) book₀ :=
    ⟨fun account _ => .nil _, valid, .inl ⟨rfl, found⟩⟩
  obtain ⟨book, represents', inBlock⟩ :=
    history.represented (inBlock_traced around unrestricted poolId time pool₀ book₀)
      represents fun _ => initially
  exact ⟨book, represents', inBlock block⟩

/-- The accumulator of a block that is not empty. -/
private theorem InBlock.allAt (inBlock : InBlock poolId time pool₀ book₀ steps book)
    (block : BlockOf poolId time steps) (someSteps : steps ≠ []) :
    ∃ accrued credit totalStaked, updatedPool time pool₀ = .ok (accrued, credit) ∧
      book.pool poolId = some { accrued with totalStaked } ∧
      (totalStaked.toNat : ℤ) = pool₀.totalStaked.toNat + movedIn steps ∧
      AllAt poolId accrued.accTokenPerShare.toNat steps := by
  rcases inBlock.pool with
    ⟨none, -⟩ | ⟨-, accrued, credit, totalStaked, computed, found, sum, saw⟩
  · exact absurd none someSteps
  · refine ⟨accrued, credit, totalStaked, computed, found, sum, fun s member => ?_⟩
    refine ⟨saw s member, fun other leaves => ?_⟩
    have trades := (block s member).2
    rw [leaves] at trades
    exact trades.elim

private theorem AllAt.own {acc : Nat} {account : AccountHash}
    (all : AllAt poolId acc steps) : AllAt poolId acc (ownSteps account poolId steps) :=
  fun s member => all s (List.mem_filter.mp member).1

private theorem InBlock.participant {account : AccountHash}
    (represents : Represents moment.world.storage book₀) (valid : poolId ≤ book₀.index)
    (found : book₀.pool poolId = some pool₀) (represents' : Represents w.storage book)
    (inBlock : InBlock poolId time pool₀ book₀ steps book)
    (block : BlockOf poolId time steps) (sole : SoleUser account poolId steps)
    (participates : ∃ step ∈ steps, step.context.caller = account) :
    ∃ user user' pool' pending,
      getUserInfoForPool { caller := account, blocktime := time } poolId
        moment.world.storage = .ok user ∧
      pendingIn account poolId time moment.world.storage = .ok pending ∧
      getUserInfoForPool { caller := account, blocktime := time } poolId w.storage =
        .ok user' ∧
      getPool poolId w.storage = .ok pool' ∧
      (rewardsOf account poolId steps : ℤ) =
        (if user.amount.toNat = 0 then 0 else pending) ∧
      (user'.amount.toNat : ℤ) =
        user.amount.toNat + movedIn (ownSteps account poolId steps) ∧
      user'.rewardDebt.toNat =
        user'.amount.toNat * pool'.accTokenPerShare.toNat / 10 ^ pool'.precision.toNat := by
  obtain ⟨step, member, caller⟩ := participates
  have someSteps : steps ≠ [] := List.ne_nil_of_mem member
  have someOwn : ownSteps account poolId steps ≠ [] := by
    apply List.ne_nil_of_mem (List.mem_filter.mpr ⟨member, _⟩)
    simp [caller, (block step member).2.settles.1]
  obtain ⟨accrued, credit, totalStaked, computed, found', -, all⟩ :=
    inBlock.allAt block someSteps
  have chain := inBlock.chains account sole
  have scale : accrued.scale = pool₀.scale := (accrual_of_updatedPool computed).scale_eq
  obtain ⟨rewards, debt⟩ := chain.rewards all.own someOwn
  refine ⟨_, _, _, _, represents.getUserInfoForPool_eq_ok.mpr ⟨valid, rfl⟩,
    (pendingIn_eq_ok represents).mpr ⟨pool₀, accrued, credit, valid, found, computed, rfl⟩,
    represents'.getUserInfoForPool_eq_ok.mpr ⟨inBlock.valid, rfl⟩,
    represents'.getPool_eq_ok.mpr ⟨inBlock.valid, found'⟩, ?_, chain.amount_eq all.own, ?_⟩
  · rw [← scale] at rewards
    exact rewards
  · rw [← scale] at debt
    exact debt

/-- Two blocks from the same state in which every account takes its turns in the same
order end in the same pool. -/
private theorem InBlock.pool_eq {steps' : List (StakeStep E)}
    (inBlock : InBlock poolId time pool₀ book₀ steps book)
    (inBlock' : InBlock poolId time pool₀ book₀ steps' book')
    (same : SameTurns steps steps') : book'.pool poolId = book.pool poolId := by
  rcases inBlock.pool with
    ⟨none, found⟩ | ⟨someSteps, accrued, credit, totalStaked, computed, found, sum, -⟩
  · rcases inBlock'.pool with ⟨-, found'⟩ | ⟨someSteps', -⟩
    · rw [found, found']
    · exact absurd (same.eq_nil_iff.mp none) someSteps'
  · rcases inBlock'.pool with
      ⟨none', -⟩ | ⟨-, accrued', credit', totalStaked', computed', found', sum', -⟩
    · exact absurd (same.eq_nil_iff.mpr none') someSteps
    · rw [computed, Except.ok.injEq, Prod.mk.injEq] at computed'
      obtain ⟨rfl, rfl⟩ := computed'
      have sameTotal : totalStaked' = totalStaked := by
        apply U256.toNat_injective
        rw [same.movedIn_eq] at sum
        omega
      rw [found, found', sameTotal]

private theorem InBlock.account_eq {steps' : List (StakeStep E)}
    (inBlock : InBlock poolId time pool₀ book₀ steps book)
    (inBlock' : InBlock poolId time pool₀ book₀ steps' book')
    (block : BlockOf poolId time steps) (block' : BlockOf poolId time steps')
    (same : SameTurns steps steps') {account : AccountHash}
    (sole : SoleUser account poolId steps) (sole' : SoleUser account poolId steps') :
    (ownSteps account poolId steps').map (got poolId) =
        (ownSteps account poolId steps).map (got poolId) ∧
      book'.user (recordKey account poolId) = book.user (recordKey account poolId) := by
  have chain := inBlock.chains account sole
  have chain' := inBlock'.chains account sole'
  have sameAsked : (ownSteps account poolId steps').map asked =
      (ownSteps account poolId steps).map asked := by
    rw [block.asked_eq, block'.asked_eq, same account]
  have agree : Agree poolId (ownSteps account poolId steps')
      (ownSteps account poolId steps) := by
    intro s' member' s member _ _ _
    have inSteps := (List.mem_filter.mp member).1
    have inSteps' := (List.mem_filter.mp member').1
    obtain ⟨accrued, credit, -, computed, -, -, all⟩ :=
      inBlock.allAt block (List.ne_nil_of_mem inSteps)
    obtain ⟨accrued', credit', -, computed', -, -, all'⟩ :=
      inBlock'.allAt block' (List.ne_nil_of_mem inSteps')
    rw [computed, Except.ok.injEq, Prod.mk.injEq] at computed'
    rw [(all s inSteps).1, (all' s' inSteps').1, computed'.1]
  exact chain'.same_of_asked agree chain sameAsked

private theorem SameTurns.participates {steps' : List (StakeStep E)}
    (same : SameTurns steps steps') {step : StakeStep E} (member : step ∈ steps) :
    ∃ step' ∈ steps', step'.context.caller = step.context.caller := by
  have isTurn : turn step ∈ steps'.map turn :=
    same.perm.mem_iff.mp (List.mem_map_of_mem member)
  obtain ⟨step', member', sameTurn⟩ := List.mem_map.mp isTurn
  exact ⟨step', member', congrArg Prod.fst sameTurn⟩

private theorem SameTurns.symm {steps' : List (StakeStep E)} (same : SameTurns steps steps') :
    SameTurns steps' steps :=
  fun account => (same account).symm

private theorem SameTurns.distinct {steps' : List (StakeStep E)}
    (same : SameTurns steps steps') (distinct : DistinctUsers steps) :
    DistinctUsers steps' := by
  intro one isOne other isOther shared
  obtain ⟨one', isOne', sameOne⟩ := same.symm.participates isOne
  obtain ⟨other', isOther', sameOther⟩ := same.symm.participates isOther
  rw [← sameOne, ← sameOther]
  exact distinct one' isOne' other' isOther' (by rw [sameOne, sameOther, shared])

private theorem InBlock.record_eq {steps' : List (StakeStep E)}
    (inBlock : InBlock poolId time pool₀ book₀ steps book)
    (inBlock' : InBlock poolId time pool₀ book₀ steps' book')
    (block : BlockOf poolId time steps) (block' : BlockOf poolId time steps')
    (distinct : DistinctUsers steps) (same : SameTurns steps steps')
    (account : AccountHash) :
    book'.user (recordKey account poolId) = book.user (recordKey account poolId) := by
  by_cases shares : ∃ step ∈ steps, step.context.caller.keyPrefix = account.keyPrefix
  · obtain ⟨step, member, shared⟩ := shares
    have sole : SoleUser step.context.caller poolId steps :=
      distinct.sole ⟨step, member, rfl⟩
    have sole' : SoleUser step.context.caller poolId steps' :=
      (same.distinct distinct).sole (same.participates member)
    have ofCaller := (inBlock.account_eq inBlock' block block' same sole sole').2
    rw [recordKey, shared] at ofCaller
    exact ofCaller
  · have sole : SoleUser account poolId steps :=
      fun step member _ shared => absurd ⟨step, member, shared⟩ shares
    have sole' : SoleUser account poolId steps' := by
      intro step' member' _ shared
      obtain ⟨step, member, sameCaller⟩ := same.symm.participates member'
      exact absurd ⟨step, member, sameCaller ▸ shared⟩ shares
    exact (inBlock.account_eq inBlock' block block' same sole sole').2

private theorem InBlock.rewards_eq {steps' : List (StakeStep E)}
    (inBlock : InBlock poolId time pool₀ book₀ steps book)
    (inBlock' : InBlock poolId time pool₀ book₀ steps' book')
    (block : BlockOf poolId time steps) (block' : BlockOf poolId time steps')
    (distinct : DistinctUsers steps) (same : SameTurns steps steps')
    (account : AccountHash) :
    (ownSteps account poolId steps').map rewardOf =
      (ownSteps account poolId steps).map rewardOf := by
  by_cases participates : ∃ step ∈ steps, step.context.caller = account
  · obtain ⟨step, member, rfl⟩ := participates
    have sole : SoleUser step.context.caller poolId steps :=
      distinct.sole ⟨step, member, rfl⟩
    have sole' : SoleUser step.context.caller poolId steps' :=
      (same.distinct distinct).sole (same.participates member)
    have sameGot := (inBlock.account_eq inBlock' block block' same sole sole').1
    simpa [got, Function.comp_def] using congrArg (List.map Prod.fst) sameGot
  · have none : ownSteps account poolId steps = [] := by
      refine List.filter_eq_nil_iff.mpr fun step member => ?_
      have other : step.context.caller ≠ account := fun own => participates ⟨step, member, own⟩
      simp [other]
    have none' : ownSteps account poolId steps' = [] := by
      refine List.filter_eq_nil_iff.mpr fun step' member' => ?_
      obtain ⟨step, member, sameCaller⟩ := same.symm.participates member'
      have other : step'.context.caller ≠ account :=
        fun own => participates ⟨step, member, sameCaller.trans own⟩
      simp [other]
    rw [none, none']

private theorem InBlock.exists_pool (inBlock : InBlock poolId time pool₀ book₀ steps book) :
    ∃ pool, book.pool poolId = some pool := by
  rcases inBlock.pool with ⟨-, found⟩ | ⟨-, _, _, _, -, found, -⟩
  · exact ⟨_, found⟩
  · exact ⟨_, found⟩

end Runs

section Sample

open Sample

/-- Two stakers of a running pool. -/
def running : Moment Erc20Ledger :=
  after unrestricted
    [(20, staker 1, .deposit (units 10) 0), (120, staker 2, .deposit (units 30) 0)]
    young (by decide +kernel)

private theorem run_running : Run around unrestricted opening running :=
  run_young.trans (run_after _)

def turns : List (StakeStep Erc20Ledger) × StakeWorld Erc20Ledger :=
  traced
    [(150, staker 1, .withdraw (units 10) 0), (150, staker 2, .deposit (units 5) 0),
      (150, staker 1, .deposit (units 4) 0)]
    running (by decide +kernel)

private theorem history_turns : ∃ later,
    History (around.setting unrestricted) running.now running.world turns.1 later turns.2 :=
  history_traced _

def otherTurns : List (StakeStep Erc20Ledger) × StakeWorld Erc20Ledger :=
  traced
    [(150, staker 2, .deposit (units 5) 0), (150, staker 1, .withdraw (units 10) 0),
      (150, staker 1, .deposit (units 4) 0)]
    running (by decide +kernel)

private theorem history_otherTurns : ∃ later,
    History (around.setting unrestricted) running.now running.world otherTurns.1 later
      otherTurns.2 :=
  history_traced _

private theorem block_turns : BlockOf 0 150 turns.1 ∧ turns.1.map turn =
    [(staker 1, .withdraw (units 10) 0), (staker 2, .deposit (units 5) 0),
      (staker 1, .deposit (units 4) 0)] ∧ DistinctUsers turns.1 := by
  decide +kernel

private theorem block_otherTurns : BlockOf 0 150 otherTurns.1 ∧ otherTurns.1.map turn =
    [(staker 2, .deposit (units 5) 0), (staker 1, .withdraw (units 10) 0),
      (staker 1, .deposit (units 4) 0)] := by
  decide +kernel

private theorem sameTurns_turns : SameTurns turns.1 otherTurns.1 := by
  intro account
  have apart : staker 2 ≠ staker 1 := by decide +kernel
  rw [block_turns.2.1, block_otherTurns.2]
  by_cases first : staker 1 = account
  · simp [← first, apart]
  · simp [List.filter_cons, first]

end Sample

end CasperContracts.Staking
