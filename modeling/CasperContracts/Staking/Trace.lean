import CasperContracts.Basis.History
import CasperContracts.Staking.Frame
import CasperContracts.Staking.Isolation
import CasperContracts.Staking.Terms

/-!
# The steps of an account

A history of the contract lists the calls that were run.  The steps of one
account on one pool form a chain: each starts from the record the one before
it has left, and what it pays and leaves is determined by that record, by its
arguments and by the accumulator it sees.
-/

namespace CasperContracts.Staking

open CasperContracts.Basis Host Prog

section Setting

variable {E : Type} (around : Surroundings E)
  (permitted : Context → Call → Storage → Prop)

def Surroundings.setting :
    Setting Context Call UInt64 Storage Failure TokenCall Event E where
  program := Call.program
  time := Context.blocktime
  answer := around.answer
  drift := around.drift
  permitted := permitted

instance [∀ context call storage, Decidable (permitted context call storage)]
    (context : Context) (call : Call) (storage : Storage) :
    Decidable ((around.setting permitted).permitted context call storage) :=
  inferInstanceAs (Decidable (permitted context call storage))

def bookModel : Model (around.setting permitted) Book where
  fresh := Uninitialised
  initial := fun book => ∃ admin selfHash, book = .empty admin selfHash
  represents := Represents
  Change := Change
  setUp := by
    intro context entry w w' fresh run
    obtain ⟨admin, isFresh⟩ := fresh
    obtain ⟨log, still | ⟨selfHash, represents⟩⟩ := runs_installed isFresh run
    · exact ⟨log, .inl still⟩
    · exact ⟨log, .inr ⟨_, ⟨admin, selfHash, rfl⟩, represents⟩⟩
  change := fun represents run => change_of_runs represents run

variable {around permitted}

theorem run_of_history {start now : UInt64} {first w : StakeWorld E}
    {steps : List (Step Context Call Storage E Event)}
    (history : History (around.setting permitted) start first steps now w) :
    Run around permitted { now := start, world := first } { now, world := w } := by
  induction history with
  | start => exact .start
  | wait _ le ih => exact ih.wait le
  | drift _ drifts ih => exact ih.drift drifts
  | call context entry _ le allowed success ih => exact ih.call le allowed success

end Setting

/-! ## What a step shows -/

abbrev StakeStep (E : Type) := Step Context Call Storage E Event

section Steps

variable {E : Type}

/-- The steps of an account that settle its stake in a pool. -/
def ownSteps (account : AccountHash) (poolId : UInt64) (steps : List (StakeStep E)) :
    List (StakeStep E) :=
  steps.filter fun step => step.context.caller = account ∧ step.entry.settles = some poolId

def rewardOf (step : StakeStep E) : Nat :=
  paidIn (step.after.log.drop step.before.log.length)

/-- What the caller reads as its record after a step. -/
def recordAfter (poolId : UInt64) (step : StakeStep E) : Except Failure UserInfo :=
  getUserInfoForPool step.context poolId step.after.storage

def accAfter (poolId : UInt64) (step : StakeStep E) : Nat :=
  match getPool poolId step.after.storage with
  | .ok pool => pool.accTokenPerShare.toNat
  | .error _ => 0

/-- Only the account itself settles its record. -/
def SoleUser (account : AccountHash) (poolId : UInt64) (steps : List (StakeStep E)) :
    Prop :=
  ∀ step ∈ steps, step.entry.settles = some poolId →
    step.context.caller.keyPrefix = account.keyPrefix → step.context.caller = account

variable {account : AccountHash} {poolId : UInt64} {steps more : List (StakeStep E)}
  {step : StakeStep E}

@[simp] theorem ownSteps_append :
    ownSteps account poolId (steps ++ more) =
      ownSteps account poolId steps ++ ownSteps account poolId more :=
  List.filter_append _ _

theorem rewardOf_eq {events : List Event} (log : step.after.log = step.before.log ++ events) :
    rewardOf step = paidIn events := by
  rw [rewardOf, log, List.drop_left]

instance : Decidable (SoleUser account poolId steps) :=
  inferInstanceAs (Decidable (∀ step ∈ steps, step.entry.settles = some poolId →
    step.context.caller.keyPrefix = account.keyPrefix → step.context.caller = account))

theorem SoleUser.earlier (sole : SoleUser account poolId (steps ++ more)) :
    SoleUser account poolId steps :=
  fun step member => sole step (List.mem_append_left _ member)

end Steps

/-! ## One step -/

def Call.moves : Call → ℤ
  | .deposit amount _ => amount.toNat
  | .withdraw amount _ => -amount.toNat
  | _ => 0

/-- How a deposit or a withdrawal settles a record at an accumulator. -/
structure SettlesAt (acc scale : Nat) (user user' : UserInfo) (call : Call)
    (reward : Nat) : Prop where
  amount : (user'.amount.toNat : ℤ) = user.amount.toNat + call.moves
  debt : user'.rewardDebt.toNat = user'.amount.toNat * acc / scale
  reward : (reward : ℤ) = if user.amount.toNat = 0 then 0 else
    ((user.amount.toNat * acc / scale : Nat) : ℤ) - user.rewardDebt.toNat

inductive OwnStep (acc scale : Nat) (user user' : UserInfo) (call : Call) (reward : Nat) :
    Prop where
  | settled (stays : ∀ poolId, call ≠ .emergencyWithdraw poolId)
      (settles : SettlesAt acc scale user user' call reward)
  | left {poolId : UInt64} (leaves : call = .emergencyWithdraw poolId)
      (amount : user'.amount.toNat = 0) (debt : user'.rewardDebt.toNat = 0)
      (nothing : reward = 0)

section Own

variable {acc scale : Nat} {user user' user'' : UserInfo} {call : Call}
  {reward reward' : Nat}

private theorem UserInfo.ext_toNat (amount : user.amount.toNat = user'.amount.toNat)
    (debt : user.rewardDebt.toNat = user'.rewardDebt.toNat) : user = user' := by
  obtain ⟨a, d⟩ := user
  obtain ⟨a', d'⟩ := user'
  rw [UserInfo.mk.injEq]
  exact ⟨U256.toNat_injective amount, U256.toNat_injective debt⟩

theorem SettlesAt.unique (one : SettlesAt acc scale user user' call reward)
    (other : SettlesAt acc scale user user'' call reward') :
    user' = user'' ∧ reward = reward' := by
  have amount : user'.amount.toNat = user''.amount.toNat := by
    have one := one.amount
    have other := other.amount
    omega
  have debt : user'.rewardDebt.toNat = user''.rewardDebt.toNat := by
    rw [one.debt, other.debt, amount]
  refine ⟨UserInfo.ext_toNat amount debt, ?_⟩
  exact Int.ofNat_inj.mp (one.reward.trans other.reward.symm)

/-- A step has one outcome, and that of an emergency withdrawal does not depend on the
accumulator. -/
theorem OwnStep.unique {acc' : Nat}
    (sameAcc : (∀ poolId, call ≠ .emergencyWithdraw poolId) → acc = acc')
    (one : OwnStep acc scale user user' call reward)
    (other : OwnStep acc' scale user user'' call reward') :
    user' = user'' ∧ reward = reward' := by
  cases one with
  | settled stays settles =>
      have same := sameAcc stays
      subst same
      cases other with
      | settled _ settles' => exact settles.unique settles'
      | left leaves => exact absurd leaves (stays _)
  | left leaves amount debt nothing =>
      cases other with
      | settled stays => exact absurd leaves (stays _)
      | left _ amount' debt' nothing' =>
          exact ⟨UserInfo.ext_toNat (amount.trans amount'.symm) (debt.trans debt'.symm),
            nothing.trans nothing'.symm⟩

variable {context : Context} {selfHash : ContractPackageHash} {poolId : UInt64}
  {accrued : StakePool} {requests : List TokenCall} {events : List Event}

theorem Settled.settlesAt
    (settled : Settled context selfHash poolId accrued user user' call requests events)
    (debt : user'.rewardDebt.toNat = accrued.earned user'.amount) :
    SettlesAt accrued.accTokenPerShare.toNat accrued.scale user user' call
      (paidIn events) := by
  refine ⟨?_, debt, ?_⟩
  · cases settled with
    | first nonzero opened fresh total => simp only [Call.moves]; omega
    | topUp nonzero opened staking total => simp only [Call.moves]; omega
    | withdraw nonzero total => simp only [Call.moves]; omega
  · cases settled with
    | first nonzero opened fresh total =>
        rw [if_pos fresh]
        rfl
    | @topUp amount pending _ nonzero opened staking total pays =>
        have paid : paidIn [.rewardPaid poolId context.caller pending,
            .deposited poolId context.caller amount] = pending.toNat := rfl
        rw [if_neg (by omega), paid]
        change accrued.earned user.amount = _ at pays
        unfold StakePool.earned at pays
        omega
    | @withdraw amount pending _ nonzero total pays =>
        have paid : paidIn [.rewardPaid poolId context.caller pending,
            .withdrawn poolId context.caller amount user'.amount] = pending.toNat := rfl
        rw [if_neg (by omega), paid]
        unfold StakePool.earned at pays
        omega

theorem Change.own {book book' : Book}
    (change : Change context book call requests events book')
    (settles : call.settles = some poolId) :
    ∃ pool', poolId ≤ book'.index ∧ book'.pool poolId = some pool' ∧
      OwnStep pool'.accTokenPerShare.toNat pool'.scale
        (book.user (recordKey context.caller poolId))
        (book'.user (recordKey context.caller poolId)) call (paidIn events) := by
  cases change with
  | @settle _ otherId pool accrued credit user' totalStaked _ settledEvents valid found
      accrual settled debt staked =>
      have samePool : otherId = poolId := by
        rw [settled.settles, Option.some.injEq] at settles
        exact settles
      subst samePool
      refine ⟨_, valid, by simp; rfl, .settled ?_ ?_⟩
      · intro other leaves
        subst leaves
        cases settled
      · rw [Book.putUser_user, if_pos rfl, paidIn_append, paidIn_creditEvents, Nat.zero_add]
        exact settled.settlesAt debt
  | @emergencyWithdraw otherId pool amount totalStaked valid found whole nonzero staked =>
      simp only [Call.settles, Option.some.injEq] at settles
      subst settles
      refine ⟨_, valid, by simp; rfl, .left rfl ?_ ?_ rfl⟩
      · rw [Book.putUser_user, if_pos rfl]
        rfl
      · rw [Book.putUser_user, if_pos rfl]
        rfl
  | addPool => cases settles
  | stopReward => cases settles
  | saveMe => cases settles
  | setAdmin => cases settles

end Own

/-! ## Chains of steps -/

/-- The steps of one account, from the record it starts with to the last one. -/
inductive OwnChain {E : Type} (poolId : UInt64) (scale : Nat) :
    UserInfo → List (StakeStep E) → UserInfo → Prop where
  | nil (user : UserInfo) : OwnChain poolId scale user [] user
  | cons {user user' last : UserInfo} {step : StakeStep E} {steps : List (StakeStep E)}
      (own : OwnStep (accAfter poolId step) scale user user' step.entry (rewardOf step))
      (after : recordAfter poolId step = .ok user')
      (rest : OwnChain poolId scale user' steps last) :
      OwnChain poolId scale user (step :: steps) last

section Chains

variable {E : Type} {poolId : UInt64} {scale : Nat} {user middle last : UserInfo}
  {steps more : List (StakeStep E)} {step : StakeStep E}

theorem OwnChain.append (chain : OwnChain poolId scale user steps middle)
    (onward : OwnChain poolId scale middle more last) :
    OwnChain poolId scale user (steps ++ more) last := by
  induction chain with
  | nil => exact onward
  | cons own after _ ih => exact .cons own after (ih onward)

theorem OwnChain.snoc (chain : OwnChain poolId scale user steps middle)
    (own : OwnStep (accAfter poolId step) scale middle last step.entry (rewardOf step))
    (after : recordAfter poolId step = .ok last) :
    OwnChain poolId scale user (steps ++ [step]) last :=
  chain.append (.cons own after (.nil last))

/-- What an account asked for, and when. -/
def asked (step : StakeStep E) : Call × UInt64 := (step.entry, step.context.blocktime)

/-- What it got, and what was left. -/
def got (poolId : UInt64) (step : StakeStep E) : Nat × Except Failure UserInfo :=
  (rewardOf step, recordAfter poolId step)

/-- Steps at the same time see the same accumulator, emergency withdrawals
apart. -/
def Agree (poolId : UInt64) (steps steps' : List (StakeStep E)) : Prop :=
  ∀ s ∈ steps, ∀ s' ∈ steps', (∀ other, s.entry ≠ .emergencyWithdraw other) →
    (∀ other, s'.entry ≠ .emergencyWithdraw other) →
    s.context.blocktime = s'.context.blocktime → accAfter poolId s = accAfter poolId s'

/-- Two chains that ask for the same, and see the same accumulators at the same
times, get the same. -/
theorem OwnChain.same_of_asked {steps' : List (StakeStep E)} {last' : UserInfo}
    (agree : Agree poolId steps steps')
    (chain : OwnChain poolId scale user steps last)
    (chain' : OwnChain poolId scale user steps' last')
    (same : steps.map asked = steps'.map asked) :
    steps.map (got poolId) = steps'.map (got poolId) ∧ last = last' := by
  induction chain generalizing steps' with
  | nil user =>
      cases chain' with
      | nil => exact ⟨rfl, rfl⟩
      | cons => cases same
  | @cons user user₁ last step steps own after rest ih =>
      cases chain' with
      | nil => cases same
      | @cons _ user₂ _ step' steps' own' after' rest' =>
          simp only [List.map_cons, List.cons.injEq] at same
          obtain ⟨sameHead, sameTail⟩ := same
          obtain ⟨sameEntry, sameTime⟩ := Prod.mk.inj sameHead
          have sameAcc (stays : ∀ other, step.entry ≠ .emergencyWithdraw other) :=
            agree step (List.mem_cons_self ..) step' (List.mem_cons_self ..) stays
              (sameEntry ▸ stays) sameTime
          rw [← sameEntry] at own'
          obtain ⟨rfl, sameReward⟩ := own.unique sameAcc own'
          have agreeTail : Agree poolId steps steps' := fun s member s' member' =>
            agree s (List.mem_cons_of_mem _ member) s' (List.mem_cons_of_mem _ member')
          obtain ⟨sameGot, sameLast⟩ := ih agreeTail rest' sameTail
          refine ⟨?_, sameLast⟩
          simp only [List.map_cons, List.cons.injEq]
          exact ⟨Prod.ext sameReward (after.trans after'.symm), sameGot⟩

end Chains

/-! ## The chains of a history -/

section History

variable {E : Type} {account : AccountHash} {poolId : UInt64} {book book' : Book}
  {step : StakeStep E} {steps : List (StakeStep E)} {requests : List TokenCall}
  {events : List Event} {user : UserInfo} {scale : Nat}

theorem accAfter_eq {pool : StakePool} (represents : Represents step.after.storage book)
    (valid : poolId ≤ book.index) (found : book.pool poolId = some pool) :
    accAfter poolId step = pool.accTokenPerShare.toNat := by
  rw [accAfter, represents.getPool_eq_ok.mpr ⟨valid, found⟩]

/-- A further step extends the chain of an account that is the only one to settle
its record. -/
theorem OwnChain.next
    (chain : OwnChain poolId scale user (ownSteps account poolId steps)
      (book.user (recordKey account poolId)))
    (change : Change step.context book step.entry requests events book')
    (represents' : Represents step.after.storage book')
    (log : step.after.log = step.before.log ++ events)
    (sameScale : ∀ pool', book'.pool poolId = some pool' → pool'.scale = scale)
    (sole : SoleUser account poolId (steps ++ [step])) :
    OwnChain poolId scale user (ownSteps account poolId (steps ++ [step]))
      (book'.user (recordKey account poolId)) := by
  rw [ownSteps_append]
  by_cases settles : step.entry.settles = some poolId
  · by_cases own : step.context.caller = account
    · subst own
      obtain ⟨pool', valid, found, ownStep⟩ := change.own settles
      rw [sameScale pool' found, ← rewardOf_eq log,
        ← accAfter_eq represents' valid found] at ownStep
      have isOwn : ownSteps step.context.caller poolId [step] = [step] := by
        simp [ownSteps, settles]
      rw [isOwn]
      exact chain.snoc ownStep (represents'.getUserInfoForPool_eq_ok.mpr ⟨valid, rfl⟩)
    · have notOwn : ownSteps account poolId [step] = [] := by
        simp [ownSteps, own]
      have apart : account.keyPrefix ≠ step.context.caller.keyPrefix := by
        intro shared
        exact own (sole step (by simp) settles shared.symm)
      rw [notOwn, List.append_nil, (change.user_eq_iff (recordKey account poolId)).mpr
        (.inl apart)]
      exact chain
  · have notOwn : ownSteps account poolId [step] = [] := by
      simp [ownSteps, settles]
    rw [notOwn, List.append_nil, (change.user_eq_iff (recordKey account poolId)).mpr
      (.inr settles)]
    exact chain

end History

namespace Sample

section Traced

variable (calls : List (UInt64 × AccountHash × Call)) (first : Moment Erc20Ledger)

/-- The steps of the calls, each with its block time and its caller. -/
@[irreducible] def traced? :
    Option (List (StakeStep Erc20Ledger) × StakeWorld Erc20Ledger) :=
  replaySteps (around.setting unrestricted) (Erc20Ledger.answer package)
    (calls.map fun (blocktime, caller, entry) => ({ caller, blocktime }, entry))
    first.now first.world

def traced (success : (traced? calls first).isSome) :
    List (StakeStep Erc20Ledger) × StakeWorld Erc20Ledger :=
  (traced? calls first).get success

variable {calls first}

theorem history_traced (success : (traced? calls first).isSome) :
    ∃ later, History (around.setting unrestricted) first.now first.world
      (traced calls first success).1 later (traced calls first success).2 := by
  have replays : traced? calls first = some (traced calls first success) :=
    (Option.some_get success).symm
  unfold traced? at replays
  exact History.replayed (fun _ _ _ answered => answered) .start replays

end Traced

end Sample

end CasperContracts.Staking
