import CasperContracts.Basis.ShareTally
import CasperContracts.Staking.Stakes

/-!
# Payments

A pool with its members is a `Tally`: updates credit it, deposits and
withdrawals settle a member, an emergency withdrawal makes one leave.  The
bounds of the tally therefore hold of the rewards paid in every run.
-/

namespace CasperContracts.Staking

open CasperContracts.Basis Host Prog

/-! ## Sums over the events of a pool -/

def sumOver (weight : Event → Nat) (log : List Event) : Nat :=
  (log.map weight).sum

@[simp] theorem sumOver_append (weight : Event → Nat) (log more : List Event) :
    sumOver weight (log ++ more) = sumOver weight log + sumOver weight more := by
  simp [sumOver]

theorem sumOver_credited (weight : Event → Nat) (log : List Event) (poolId : UInt64)
    (credit : Credit) :
    sumOver weight (log ++ creditEvents poolId (some credit)) =
      sumOver weight log + weight (.credited poolId credit) := by
  simp [sumOver, creditEvents]

def paidIn : List Event → Nat :=
  sumOver fun event =>
    match event with
    | .rewardPaid _ _ pending => pending.toNat
    | _ => 0

/-- The growth of the accumulator times the stake it was shared among. -/
def creditedIn : List Event → Nat :=
  sumOver fun event =>
    match event with
    | .credited _ credit => credit.share.toNat * credit.totalStaked.toNat
    | _ => 0

/-- The rewards credited, before they are scaled and shared. -/
def rewardsIn : List Event → Nat :=
  sumOver fun event =>
    match event with
    | .credited _ credit => credit.rewards.toNat
    | _ => 0

/-- The settlements: withdrawals and deposits on top of a stake. -/
def settlementsIn : List Event → Nat :=
  sumOver fun event =>
    match event with
    | .rewardPaid _ _ _ => 1
    | _ => 0

/-- The deposits, and the withdrawals of a part of a stake. -/
def stakesKeptIn : List Event → Nat :=
  sumOver fun event =>
    match event with
    | .deposited _ _ _ => 1
    | .withdrawn _ _ _ left => if left.toNat = 0 then 0 else 1
    | _ => 0

@[simp] theorem paidIn_append (log more : List Event) :
    paidIn (log ++ more) = paidIn log + paidIn more :=
  sumOver_append _ _ _

@[simp] theorem paidIn_creditEvents (poolId : UInt64) (credit : Option Credit) :
    paidIn (creditEvents poolId credit) = 0 := by
  cases credit <;> rfl

/-! ## The tally of a pool -/

/-- The totals of a pool, with what its events add up to. -/
def tallyOf (pool : StakePool) (members : Members) (log : List Event) : Tally where
  acc := pool.accTokenPerShare.toNat
  staked := members.staked
  debt := members.debt
  paid := paidIn log
  credited := creditedIn log
  kept := stakesKeptIn log
  closed := settlementsIn log

section Tally

variable {now : UInt64} {first pool accrued : StakePool} {members : Members}
  {log : List Event} {poolId : UInt64} {credit : Option Credit}

theorem Accrual.tally (accrual : Accrual now pool accrued credit)
    (staked : pool.totalStaked.toNat = members.staked) :
    Tally.Credit (credit.elim 0 fun c => c.share.toNat) (tallyOf pool members log)
      (tallyOf accrued members (log ++ creditEvents poolId credit)) := by
  have credited : creditedIn (creditEvents poolId credit) =
      (credit.elim 0 fun c => c.share.toNat) * members.staked := by
    cases accrual with
    | kept => simp [creditEvents, creditedIn, sumOver]
    | idle => simp [creditEvents, creditedIn, sumOver]
    | credited reaches numbers sum =>
        simp [creditEvents, creditedIn, sumOver, numbers.totalStaked, staked]
  have unpaid : paidIn (creditEvents poolId credit) = 0 := paidIn_creditEvents _ _
  have unkept : stakesKeptIn (creditEvents poolId credit) = 0 := by
    cases credit <;> rfl
  have unsettled : settlementsIn (creditEvents poolId credit) = 0 := by
    cases credit <;> rfl
  exact {
    acc := accrual.acc_eq
    staked := rfl
    debt := rfl
    paid := (sumOver_append _ _ _).trans (by rw [← paidIn, unpaid]; rfl)
    credited := (sumOver_append _ _ _).trans (by rw [← creditedIn, credited]; rfl)
    kept := (sumOver_append _ _ _).trans (by rw [← stakesKeptIn, unkept]; rfl)
    closed := (sumOver_append _ _ _).trans (by rw [← settlementsIn, unsettled]; rfl) }

theorem Settled.tally {context : Context} {selfHash : ContractPackageHash}
    {user' : UserInfo} {totalStaked : U256} {call : Call} {requests : List TokenCall}
    {events : List Event}
    (settled : Settled context selfHash poolId accrued
      (members.user context.caller.keyPrefix) user' call requests events)
    (noDebt : (members.user context.caller.keyPrefix).amount.toNat = 0 →
      (members.user context.caller.keyPrefix).rewardDebt.toNat = 0)
    (debt : user'.rewardDebt.toNat = accrued.earned user'.amount) :
    Tally.Settle accrued.scale (tallyOf accrued members log)
      (tallyOf { accrued with totalStaked }
        (members.insert context.caller.keyPrefix user') (log ++ events)) := by
  have stakes := members.staked_insert context.caller.keyPrefix user'
  have debts := members.debt_insert context.caller.keyPrefix user'
  rw [debt] at debts
  cases settled with
  | first nonzero opened fresh total =>
      refine ⟨rfl, sumOver_append _ _ _, _, 0, _, 0, ?_, stakes, ?_, ?_, ?_, ?_⟩
      · exact StakePool.earned_eq_zero fresh
      · rw [noDebt fresh] at debts
        exact debts
      · exact sumOver_append _ _ _
      · rw [if_neg (by omega)]
        exact sumOver_append _ _ _
      · rw [if_pos fresh]
        exact sumOver_append _ _ _
  | topUp nonzero opened staking total pays payment =>
      refine ⟨rfl, sumOver_append _ _ _, _, _, _, _, pays, stakes, debts, ?_, ?_, ?_⟩
      · exact sumOver_append _ _ _
      · rw [if_neg (by omega)]
        exact sumOver_append _ _ _
      · rw [if_neg (by omega)]
        exact sumOver_append _ _ _
  | withdraw nonzero total pays payment =>
      refine ⟨rfl, sumOver_append _ _ _, _, _, _, _, pays, stakes, debts, ?_, ?_, ?_⟩
      · exact sumOver_append _ _ _
      · change stakesKeptIn (log ++ _) = stakesKeptIn log + _
        simp [stakesKeptIn, sumOver]
      · rw [if_neg (by omega)]
        exact sumOver_append _ _ _

/-- A stake taken out in an emergency leaves the tally. -/
theorem tally_of_emergency {totalStaked : U256} {account : AccountHash} {amount : U256}
    {key : KeyPrefix} (sound : Sound first pool members) :
    Tally.Leave pool.scale (tallyOf pool members log)
      (tallyOf { pool with totalStaked }
        (members.insert key { amount := U256.zero, rewardDebt := U256.zero })
        (log ++ [.emergencyWithdrawn poolId account amount])) where
  acc := rfl
  paid := sumOver_append _ _ _
  credited := sumOver_append _ _ _
  kept := sumOver_append _ _ _
  exchange := ⟨_, _, sound.debts key,
    (members.staked_insert key { amount := U256.zero, rewardDebt := U256.zero }).symm,
    (members.debt_insert key { amount := U256.zero, rewardDebt := U256.zero }).symm⟩

/-- The end of a pool is not part of its tally. -/
theorem tally_of_stop {endTime : UInt64} {refund : U256} :
    tallyOf { pool with endTime } members (log ++ [.stopped poolId now refund]) =
      tallyOf pool members log := by
  simp [tallyOf, paidIn, creditedIn, settlementsIn, stakesKeptIn, sumOver]

/-- The debts of all members are within what all stakes have earned. -/
theorem Sound.debts_le (sound : Sound first pool members) :
    pool.scale * members.debt ≤ pool.accTokenPerShare.toNat * members.staked := by
  have each : FiniteStore.total
      (fun _ user => user.rewardDebt.toNat * pool.scale) members ≤
      FiniteStore.total
        (fun _ user => user.amount.toNat * pool.accTokenPerShare.toNat) members := by
    apply FiniteStore.total_le_total
    intro key user found
    have isUser : members.user key = user := by simp [Members.user, found]
    have within := sound.debts key
    rw [isUser] at within
    exact (Nat.le_div_iff_mul_le pool.scale_pos).mp within
  rw [FiniteStore.total_mul, FiniteStore.total_mul] at each
  rw [Nat.mul_comm, Nat.mul_comm pool.accTokenPerShare.toNat]
  exact each

end Tally

section Bounds

variable {context : Context} {selfHash : ContractPackageHash} {poolId : UInt64}
  {first pool pool' : StakePool} {members members' : Members} {call : Call}
  {log events : List Event}

theorem covered_of_new (first : StakePool) :
    Tally.Covered first.scale (tallyOf first ∅ [.poolAdded first]) :=
  Nat.zero_le _

theorem distributed_of_new (first : StakePool) :
    Tally.Distributed first.scale (tallyOf first ∅ [.poolAdded first]) :=
  Nat.zero_le _

theorem Sound.scale_eq (sound : Sound first pool members) : pool.scale = first.scale := by
  have samePrecision : pool.precision = first.precision :=
    congrArg Terms.precision sound.terms
  rw [StakePool.scale, StakePool.scale, samePrecision]

theorem PoolChange.covered (sound : Sound first pool members)
    (change : PoolChange context selfHash poolId pool members call events pool' members')
    (covered : Tally.Covered first.scale (tallyOf pool members log)) :
    Tally.Covered first.scale (tallyOf pool' members' (log ++ events)) := by
  rw [← sound.scale_eq] at covered ⊢
  cases change with
  | @settle _ accrued credit user' totalStaked _ settledEvents accrual settled debt staked =>
      have credited : Tally.Covered pool.scale
          (tallyOf accrued members (log ++ creditEvents poolId credit)) :=
        (accrual.tally sound.staked).covered covered
      rw [← accrual.scale_eq] at credited ⊢
      rw [← List.append_assoc]
      exact (settled.tally sound.debt_eq_zero debt).covered accrued.scale_pos credited
  | emergencyWithdraw whole nonzero staked =>
      exact (tally_of_emergency sound).covered covered
  | stopReward accrual owner running refunds =>
      rw [← List.append_assoc, tally_of_stop]
      exact (accrual.tally sound.staked).covered covered

/-- Without emergencies every change of a pool keeps its credits distributed. -/
theorem PoolChange.distributed (sound : Sound first pool members)
    (noEmergency : call ≠ .emergencyWithdraw poolId)
    (change : PoolChange context selfHash poolId pool members call events pool' members')
    (distributed : Tally.Distributed first.scale (tallyOf pool members log)) :
    Tally.Distributed first.scale (tallyOf pool' members' (log ++ events)) := by
  rw [← sound.scale_eq] at distributed ⊢
  cases change with
  | @settle _ accrued credit user' totalStaked _ settledEvents accrual settled debt staked =>
      have credited : Tally.Distributed pool.scale
          (tallyOf accrued members (log ++ creditEvents poolId credit)) :=
        (accrual.tally sound.staked).distributed distributed
      rw [← accrual.scale_eq] at credited ⊢
      rw [← List.append_assoc]
      exact (settled.tally sound.debt_eq_zero debt).distributed accrued.scale_pos credited
  | emergencyWithdraw => exact absurd rfl noEmergency
  | stopReward accrual owner running refunds =>
      rw [← List.append_assoc, tally_of_stop]
      exact (accrual.tally sound.staked).distributed distributed

end Bounds

end CasperContracts.Staking
