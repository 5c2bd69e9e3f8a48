import Mathlib.Algebra.BigOperators.Group.Finset.Piecewise
import CasperContracts.Basis.TotalCorrectness
import CasperContracts.Host.Supply
import CasperContracts.Staking.Run

/-!
# Netted payouts

`deposit` and `withdraw` choose among several payments, and an account without stake
takes a path of its own.  What they are for is said by two plain programs that always
pay out the pending reward first and then move the stake.  Among standard tokens of
bounded supply, wherever the plain program succeeds the contract's succeeds too, with
the same balances and records, and needs no larger allowance.
-/

namespace CasperContracts.Staking

open CasperContracts.Basis Host Prog

/-! ## The plain programs -/

def payThenPull (context : Context) (pending amount : U256)
    (rewardToken stakingToken : ContractHash) : Contract Unit := do
  Prog.request (InteractErc20.transfer rewardToken context.caller pending)
  let spender ← Prog.reads selfContractHash
  Prog.request (InteractErc20.transferFrom stakingToken context.caller spender amount)

def payThenPush (context : Context) (pending amount : U256)
    (rewardToken stakingToken : ContractHash) : Contract Unit := do
  Prog.request (InteractErc20.transfer rewardToken context.caller pending)
  Prog.request (InteractErc20.transfer stakingToken context.caller amount)

/-- A deposit that treats every account alike and pays plainly. -/
def plainDeposit (context : Context) (amount : U256) (poolId : UInt64) :
    Contract Unit := do
  revertIf amount.isZero .invalidArgument
  let stakePool ← updatePool context poolId
  revertIf (stakePool.endTime < context.blocktime) .invalidArgument
  let userInfo ← Prog.reads (getUserInfoForPool context poolId)
  let newAmount ← arith (amount.checkedAdd userInfo.amount)
  let precision ← arith (U256.ten.checkedPow (.ofUInt64 stakePool.precision))
  let product ← arith (userInfo.amount.checkedMul stakePool.accTokenPerShare)
  let quotient ← arith (product.checkedDiv precision)
  let pending ← arith (quotient.checkedSub userInfo.rewardDebt)
  let totalStaked ← arith (stakePool.totalStaked.checkedAdd amount)
  let newProduct ← arith (newAmount.checkedMul stakePool.accTokenPerShare)
  let rewardDebt ← arith (newProduct.checkedDiv precision)
  payThenPull context pending amount stakePool.rewardToken stakePool.stakingToken
  Prog.updates (updateStorage context { stakePool with totalStaked }
    { amount := newAmount, rewardDebt } poolId)

/-- A withdrawal that pays plainly. -/
def plainWithdraw (context : Context) (amount : U256) (poolId : UInt64) :
    Contract Unit := do
  revertIf amount.isZero .invalidArgument
  let userInfo ← Prog.reads (getUserInfoForPool context poolId)
  let stakePool ← updatePool context poolId
  revertIf userInfo.amount.isZero .invalidArgument
  let newAmount ← arith (userInfo.amount.checkedSub amount)
  let precision ← arith (U256.ten.checkedPow (.ofUInt64 stakePool.precision))
  let product ← arith (userInfo.amount.checkedMul stakePool.accTokenPerShare)
  let quotient ← arith (product.checkedDiv precision)
  let pending ← arith (quotient.checkedSub userInfo.rewardDebt)
  let totalStaked ← arith (stakePool.totalStaked.checkedSub amount)
  let newProduct ← arith (newAmount.checkedMul stakePool.accTokenPerShare)
  let rewardDebt ← arith (newProduct.checkedDiv precision)
  payThenPush context pending amount stakePool.rewardToken stakePool.stakingToken
  Prog.updates (updateStorage context { stakePool with totalStaked }
    { amount := newAmount, rewardDebt } poolId)

/-! ## The payments -/

section Payments

variable {E : Type}

/-- Two ways to pay from `before` that leave the same balances, the second of them with
at least the allowances of the first and none that has grown. -/
structure PaysAlike (balances : E → Balances) (allowances : E → Allowances)
    (before plain netted : E) : Prop where
  balances : balances netted = balances plain
  granted : allowances plain ≤ allowances netted
  consumed : allowances netted ≤ allowances before

variable {package : ContractPackageHash} {answer : TokenCall → E → E → Prop}
  {balances : E → Balances} {allowances : E → Allowances} {e e₁ e₂ f : E}
  {caller : AccountHash} {rewardToken stakingToken token : ContractHash}
  {pending amount : U256} {requests : List TokenCall}

private theorem PaysAlike.of_same (fewer : allowances e₂ ≤ allowances e)
    (same : balances f = balances e₂ ∧ allowances f = allowances e₂) :
    PaysAlike balances allowances e e₂ f where
  balances := same.1
  granted := same.2.ge
  consumed := same.2.trans_le fewer

private theorem account_ne : Address.account caller ≠ .contract package := nofun

private theorem pair_fits (supply : SupplyWithin (2 ^ 256 - 1) (balances e)) :
    balances e token (.contract package) + balances e token (.account caller) <
      2 ^ 256 := by
  have both : balances e token (.contract package) + balances e token (.account caller) ≤
      2 ^ 256 - 1 := supply.pair account_ne.symm
  omega

/-- A pull succeeds again where balances and allowances are the same. -/
private theorem pull_again (full : FullErc20 package answer balances allowances)
    (room : balances f token (.contract package) + balances f token (.account caller) <
      2 ^ 256)
    (sameBalances : balances f = balances e₁) (sameAllowances : allowances f = allowances e₁)
    (pulled : answer (InteractErc20.transferFrom token caller package amount) e₁ e₂) :
    (∃ f', answer (InteractErc20.transferFrom token caller package amount) f f') ∧
      ∀ f', answer (InteractErc20.transferFrom token caller package amount) f f' →
        balances f' = balances e₂ ∧ allowances f' = allowances e₂ := by
  have moves := full.transferFrom pulled
  have spends := full.spends pulled
  constructor
  · apply full.exists_transferFrom room
    · rw [sameBalances]
      exact moves.le_source account_ne
    · rw [sameAllowances]
      exact spends.le_granted
  · intro f' pulled'
    have moves' := full.transferFrom pulled'
    have spends' := full.spends pulled'
    rw [sameBalances] at moves'
    rw [sameAllowances] at spends'
    exact ⟨moves'.unique moves, spends'.unique spends⟩

private theorem push_again (full : FullErc20 package answer balances allowances)
    (room : balances f token (.contract package) + balances f token (.account caller) <
      2 ^ 256)
    (sameBalances : balances f = balances e₁) (sameAllowances : allowances f = allowances e₁)
    (pushed : answer (InteractErc20.transfer token caller amount) e₁ e₂) :
    (∃ f', answer (InteractErc20.transfer token caller amount) f f') ∧
      ∀ f', answer (InteractErc20.transfer token caller amount) f f' →
        balances f' = balances e₂ ∧ allowances f' = allowances e₂ := by
  have moves := full.transfer pushed
  constructor
  · apply full.exists_transfer room
    rw [sameBalances]
    exact moves.le_source account_ne.symm
  · intro f' pushed'
    have moves' := full.transfer pushed'
    rw [sameBalances] at moves'
    refine ⟨moves'.unique moves, ?_⟩
    rw [full.keeps pushed', full.keeps pushed, sameAllowances]

private theorem paid_nothing (full : FullErc20 package answer balances allowances)
    (zero : pending.toNat = 0)
    (paid : answer (InteractErc20.transfer rewardToken caller pending) e e₁) :
    balances e = balances e₁ ∧ allowances e = allowances e₁ := by
  have moves := full.transfer paid
  rw [zero] at moves
  exact ⟨moves.eq_of_zero.symm, (full.keeps paid).symm⟩

/-- After a payment in another token there is as much room as before. -/
private theorem room_after (full : FullErc20 package answer balances allowances)
    (supply : SupplyWithin (2 ^ 256 - 1) (balances e))
    (different : rewardToken ≠ stakingToken)
    (paid : answer (InteractErc20.transfer rewardToken caller pending) e e₁) :
    balances e₁ stakingToken (.contract package) +
      balances e₁ stakingToken (.account caller) < 2 ^ 256 := by
  have moves := full.transfer paid
  rw [moves.at_other different.symm, moves.at_other different.symm]
  exact pair_fits supply

/-- Where the reward can be paid out and the stake then be pulled, the payment that
`deposit` chooses can be made, and pays alike. -/
theorem DepositPayment.alike (full : FullErc20 package answer balances allowances)
    (supply : SupplyWithin (2 ^ 256 - 1) (balances e))
    (paid : answer (InteractErc20.transfer rewardToken caller pending) e e₁)
    (pulled : answer (InteractErc20.transferFrom stakingToken caller package amount) e₁ e₂)
    (payment : DepositPayment package caller pending amount rewardToken stakingToken
      requests) :
    Answerable answer requests e (PaysAlike balances allowances e e₂) := by
  have paysOut := full.transfer paid
  have pulls := full.transferFrom pulled
  have kept := full.keeps paid
  have spends := full.spends pulled
  rw [kept] at spends
  cases payment with
  | pendingZero zero =>
      obtain ⟨sameBalances, sameAllowances⟩ := paid_nothing full zero paid
      obtain ⟨possible, same⟩ :=
        pull_again full (pair_fits supply) sameBalances sameAllowances pulled
      exact ⟨possible, fun f answered => .of_same spends.le (same f answered)⟩
  | @equalTokenPendingGreater rest equal difference =>
      subst equal
      have netted := paysOut.net pulls difference
      constructor
      · apply full.exists_transfer (pair_fits supply)
        exact netted.le_source account_ne.symm
      · intro f answered
        have unspent := full.keeps answered
        exact ⟨(full.transfer answered).unique netted, unspent.symm ▸ spends.le, unspent.le⟩
  | @equalTokenPendingLesser rest equal difference =>
      subst equal
      have netted := paysOut.net_back pulls difference
      have less : rest.toNat ≤ amount.toNat := by omega
      constructor
      · apply full.exists_transferFrom (pair_fits supply)
        · exact netted.le_source account_ne
        · exact le_trans less spends.le_granted
      · intro f answered
        have spendsLess := full.spends answered
        exact ⟨(full.transferFrom answered).unique netted, spends.anti spendsLess less,
          spendsLess.le⟩
  | claimRewardAndDeposit different =>
      constructor
      · exact ⟨e₁, paid⟩
      · intro f answered
        have sameBalances := (full.transfer answered).unique paysOut
        have sameAllowances := (full.keeps answered).trans kept.symm
        obtain ⟨possible, same⟩ := pull_again full
          (room_after full supply different answered) sameBalances sameAllowances pulled
        exact ⟨possible, fun f' answered' => .of_same spends.le (same f' answered')⟩

theorem WithdrawPayment.alike (full : FullErc20 package answer balances allowances)
    (supply : SupplyWithin (2 ^ 256 - 1) (balances e))
    (paid : answer (InteractErc20.transfer rewardToken caller pending) e e₁)
    (pushed : answer (InteractErc20.transfer stakingToken caller amount) e₁ e₂)
    (payment : WithdrawPayment caller pending amount rewardToken stakingToken requests) :
    Answerable answer requests e (PaysAlike balances allowances e e₂) := by
  have paysOut := full.transfer paid
  have pushes := full.transfer pushed
  have kept : allowances e₂ = allowances e := (full.keeps pushed).trans (full.keeps paid)
  cases payment with
  | pendingZero zero =>
      obtain ⟨sameBalances, sameAllowances⟩ := paid_nothing full zero paid
      obtain ⟨possible, same⟩ :=
        push_again full (pair_fits supply) sameBalances sameAllowances pushed
      exact ⟨possible, fun f answered => .of_same kept.le (same f answered)⟩
  | @equalTokens total equal sum =>
      subst equal
      have netted := paysOut.trans pushes
      rw [← sum] at netted
      constructor
      · apply full.exists_transfer (pair_fits supply)
        exact netted.le_source account_ne.symm
      · intro f answered
        have unspent := full.keeps answered
        exact ⟨(full.transfer answered).unique netted, (kept.trans unspent.symm).le,
          unspent.le⟩
  | differentTokens different =>
      constructor
      · exact ⟨e₁, paid⟩
      · intro f answered
        have sameBalances := (full.transfer answered).unique paysOut
        have sameAllowances := (full.keeps answered).trans (full.keeps paid).symm
        obtain ⟨possible, same⟩ := push_again full
          (room_after full supply different answered) sameBalances sameAllowances pushed
        exact ⟨possible, fun f' answered' => .of_same kept.le (same f' answered')⟩

private theorem sum_fits (full : FullErc20 package answer balances allowances)
    (supply : SupplyWithin (2 ^ 256 - 1) (balances e))
    (paid : answer (InteractErc20.transfer rewardToken caller pending) e e₁)
    (pushed : answer (InteractErc20.transfer stakingToken caller amount) e₁ e₂)
    (equal : rewardToken = stakingToken) : pending.toNat + amount.toNat < 2 ^ 256 := by
  subst equal
  have both := ((full.transfer paid).trans (full.transfer pushed)).le_source account_ne.symm
  have room : balances e rewardToken (.contract package) +
      balances e rewardToken (.account caller) < 2 ^ 256 := pair_fits supply
  omega

end Payments

/-! ## The programs -/

section Rules

variable {E : Type} {respond : TokenCall → StakeWorld E → StakeWorld E → Prop}
  {context : Context} {poolId : UInt64} {w : StakeWorld E} {α β : Type}
  {post : β → StakeWorld E → Prop}

theorem ensures_arith_bind {result : Option α} {f : α → Contract β} :
    Ensures respond (arith result >>= f) w post ↔
      ∃ a, result = some a ∧ Ensures respond (f a) w post := by
  rw [arith, ensures_ofExcept_bind]
  simp only [orPanic_eq_ok]

theorem ensures_revertIf_bind {condition : Prop} [Decidable condition] {error : ApiError}
    {f : Unit → Contract β} :
    Ensures respond (revertIf condition error >>= f) w post ↔
      ¬ condition ∧ Ensures respond (f ()) w post := by
  unfold revertIf
  by_cases holds : condition
  · simp [holds, ensures_bind, Ensures]
  · simp [holds, ensures_bind, ensures_pure]

theorem ensures_updatePool_bind {f : StakePool → Contract β} :
    Ensures respond (updatePool context poolId >>= f) w post ↔
      ∃ pool updated credit, getPool poolId w.storage = .ok pool ∧
        updatedPool context.blocktime pool = .ok (updated, credit) ∧
        Ensures respond (f updated)
          { w with log := w.log ++ creditEvents poolId credit } post := by
  have inside : ∀ mid : StakePool → StakeWorld E → Prop,
      Ensures respond (updatePool context poolId) w mid ↔
        ∃ pool updated credit, getPool poolId w.storage = .ok pool ∧
          updatedPool context.blocktime pool = .ok (updated, credit) ∧
          mid updated { w with log := w.log ++ creditEvents poolId credit } := by
    intro mid
    simp only [updatePool, ensures_reads_bind, ensures_ofExcept_bind, Prod.exists,
      exists_and_left]
    apply exists_congr
    intro pool
    apply and_congr_right
    intro _
    apply exists_congr
    intro updated
    apply exists_congr
    intro credit
    apply and_congr_right
    intro _
    cases credit with
    | none => simp [creditEvents, ensures_pure]
    | some credit =>
        simp only [ensures_record_bind, ensures_pure, creditEvents]
  rw [ensures_bind]
  exact inside _

end Rules

/-- `netted` has the records of `plain`, and has been paid alike from `w`. -/
def Netted {E : Type} (balances : E → Balances) (allowances : E → Allowances)
    (w plain netted : StakeWorld E) : Prop :=
  netted.storage = plain.storage ∧
    PaysAlike balances allowances w.outside plain.outside netted.outside

/-- Where `plain` succeeds, `program` cannot fail in the contract and can succeed, and
it always ends with the same records and balances. -/
def Realizes {E : Type} (answer : TokenCall → E → E → Prop) (balances : E → Balances)
    (allowances : E → Allowances) (w : StakeWorld E) (plain program : Contract Unit) : Prop :=
  ∀ u, Runs (Quiet answer) plain w () u →
    (∀ failure, ¬ Fails (Quiet answer) program w failure) ∧
    (∃ v, Runs (Quiet answer) program w () v) ∧
    ∀ v, Runs (Quiet answer) program w () v → Netted balances allowances w u v

section Settle

variable {E : Type} {answer : TokenCall → E → E → Prop} {context : Context}
  {w : StakeWorld E} {selfHash : ContractPackageHash} {pending amount : U256}
  {rewardToken stakingToken : ContractHash} {paid : E → Prop}

/-- Where the requests of a deposit can be answered, its payment can be made. -/
theorem ensures_payDeposit (self : w.storage.selfContractHash = some selfHash)
    (answerable : ∀ requests, DepositPayment selfHash context.caller pending amount
      rewardToken stakingToken requests → Answerable answer requests w.outside paid) :
    Ensures (Quiet answer) (payDeposit context pending amount rewardToken stakingToken) w
      fun _ v => ∃ e, paid e ∧ v = { w with outside := e } := by
  have known : selfContractHash w.storage = .ok selfHash := selfContractHash_eq_ok.mpr self
  by_cases zero : pending.toNat = 0
  · obtain ⟨possible, pays⟩ := answerable _ (.pendingZero zero)
    simp only [payDeposit_of_zero zero, ensures_reads_bind, ensures_quiet, known,
      Except.ok.injEq, exists_eq_left']
    exact ⟨possible, fun e answered => ⟨e, pays e answered, rfl⟩⟩
  · by_cases equal : rewardToken = stakingToken
    · by_cases greater : amount.toNat < pending.toNat
      · obtain ⟨rest, difference, -⟩ := U256.exists_checkedSub (le_of_lt greater)
        obtain ⟨possible, pays⟩ := answerable _ (.equalTokenPendingGreater equal
          (U256.checkedSub_eq_some.mp difference))
        simp only [payDeposit_of_lt equal greater, ensures_arith_bind, ensures_quiet,
          difference, Option.some.injEq, exists_eq_left']
        exact ⟨possible, fun e answered => ⟨e, pays e answered, rfl⟩⟩
      · obtain ⟨rest, difference, -⟩ := U256.exists_checkedSub (Nat.not_lt.mp greater)
        obtain ⟨possible, pays⟩ := answerable _ (.equalTokenPendingLesser equal
          (U256.checkedSub_eq_some.mp difference))
        simp only [payDeposit_of_le equal zero (Nat.not_lt.mp greater), ensures_reads_bind,
          ensures_arith_bind, ensures_quiet, known, difference, Option.some.injEq,
          Except.ok.injEq, exists_eq_left']
        exact ⟨possible, fun e answered => ⟨e, pays e answered, rfl⟩⟩
    · obtain ⟨possible, pays⟩ := answerable _ (.claimRewardAndDeposit equal)
      simp only [payDeposit_of_ne equal zero, ensures_quiet_bind, ensures_reads_bind,
        ensures_quiet, known, Except.ok.injEq, exists_eq_left']
      constructor
      · exact possible
      · intro e claimed
        obtain ⟨pullable, pulls⟩ := pays e claimed
        exact ⟨pullable, fun e' answered => ⟨e', pulls e' answered, rfl⟩⟩

theorem ensures_payWithdraw
    (fits : rewardToken = stakingToken → pending.toNat + amount.toNat < 2 ^ 256)
    (answerable : ∀ requests, WithdrawPayment context.caller pending amount rewardToken
      stakingToken requests → Answerable answer requests w.outside paid) :
    Ensures (Quiet answer) (payWithdraw context pending amount rewardToken stakingToken) w
      fun _ v => ∃ e, paid e ∧ v = { w with outside := e } := by
  by_cases zero : pending.toNat = 0
  · obtain ⟨possible, pays⟩ := answerable _ (.pendingZero zero)
    simp only [payWithdraw_of_zero zero, ensures_quiet]
    exact ⟨possible, fun e answered => ⟨e, pays e answered, rfl⟩⟩
  · by_cases equal : rewardToken = stakingToken
    · obtain ⟨total, sum, -⟩ := U256.exists_checkedAdd (fits equal)
      obtain ⟨possible, pays⟩ :=
        answerable _ (.equalTokens equal (U256.checkedAdd_eq_some.mp sum))
      simp only [payWithdraw_of_eq equal zero, ensures_arith_bind, ensures_quiet, sum,
        Option.some.injEq, exists_eq_left']
      exact ⟨possible, fun e answered => ⟨e, pays e answered, rfl⟩⟩
    · obtain ⟨possible, pays⟩ := answerable _ (.differentTokens equal)
      simp only [payWithdraw_of_ne equal zero, ensures_quiet_bind, ensures_quiet]
      constructor
      · exact possible
      · intro e claimed
        obtain ⟨pushable, pushes⟩ := pays e claimed
        exact ⟨pushable, fun e' answered => ⟨e', pushes e' answered, rfl⟩⟩

variable {balances : E → Balances} {allowances : E → Allowances} {poolId : UInt64}
  {plain : StakeWorld E}

private theorem runs_payThenPull {u : StakeWorld E}
    (run : Runs (Quiet answer) (payThenPull context pending amount rewardToken stakingToken)
      w () u)
    (self : w.storage.selfContractHash = some selfHash) :
    ∃ e₁ e₂, answer (InteractErc20.transfer rewardToken context.caller pending) w.outside
        e₁ ∧
      answer (InteractErc20.transferFrom stakingToken context.caller selfHash amount) e₁
        e₂ ∧
      u = { w with outside := e₂ } := by
  simp only [payThenPull, runs_request_bind, runs_reads_bind, runs_request] at run
  obtain ⟨_, ⟨e₁, claimed, rfl⟩, spender, known, e₂, pulled, rfl⟩ := run
  rw [selfContractHash_eq_ok, self, Option.some.injEq] at known
  subst known
  exact ⟨e₁, e₂, claimed, pulled, rfl⟩

private theorem runs_payThenPush {u : StakeWorld E}
    (run : Runs (Quiet answer) (payThenPush context pending amount rewardToken stakingToken)
      w () u) :
    ∃ e₁ e₂, answer (InteractErc20.transfer rewardToken context.caller pending) w.outside
        e₁ ∧
      answer (InteractErc20.transfer stakingToken context.caller amount) e₁ e₂ ∧
      u = { w with outside := e₂ } := by
  simp only [payThenPush, runs_request_bind, runs_request] at run
  obtain ⟨_, ⟨e₁, claimed, rfl⟩, e₂, pushed, rfl⟩ := run
  exact ⟨e₁, e₂, claimed, pushed, rfl⟩

private theorem nothing_pending {user : UserInfo} {acc product precision quotient : U256}
    (noStake : user.amount.toNat = 0)
    (mul : user.amount.checkedMul acc = some product)
    (div : product.checkedDiv precision = some quotient)
    (owed : quotient.checkedSub user.rewardDebt = some pending) : pending.toNat = 0 := by
  rw [U256.checkedMul_eq_some, noStake, Nat.zero_mul] at mul
  rw [U256.checkedDiv_eq_some, mul, Nat.zero_div] at div
  rw [U256.checkedSub_eq_some] at owed
  omega

private theorem realizes_of_ensures {plainProgram program : Contract Unit}
    (ensures : ∀ u, Runs (Quiet answer) plainProgram w () u →
      Ensures (Quiet answer) program w fun _ v => Netted balances allowances w u v) :
    Realizes answer balances allowances w plainProgram program := by
  intro u run
  have total := ensures u run
  obtain ⟨⟨⟩, v, succeeds⟩ := total.exists_runs
  exact ⟨total.not_fails, ⟨v, succeeds⟩, fun _ => total.of_runs⟩

theorem ensures_deposit (full : FullErc20 selfHash answer balances allowances)
    (supply : SupplyWithin (2 ^ 256 - 1) (balances w.outside))
    (self : w.storage.selfContractHash = some selfHash)
    (run : Runs (Quiet answer) (plainDeposit context amount poolId) w () plain) :
    Ensures (Quiet answer) (deposit context amount poolId) w fun _ netted =>
      Netted balances allowances w plain netted := by
  have known : selfContractHash w.storage = .ok selfHash := selfContractHash_eq_ok.mpr self
  simp only [plainDeposit, runs_revertIf_bind, runs_updatePool_bind, runs_reads_bind,
    runs_arith_bind] at run
  obtain ⟨positive, pool, accrued, credit, readPool, computed, opened, user, readUser,
    newAmount, sum, precision, power, product, mul, quotient, div, pending, owed,
    totalStaked, added, newProduct, newMul, rewardDebt, newDiv, rest⟩ := run
  obtain ⟨u, payment, finish⟩ := runs_unit_bind.mp rest
  obtain ⟨storage', written, rfl⟩ := runs_updates.mp finish
  obtain ⟨e₁, e₂, claimed, pulled, rfl⟩ := runs_payThenPull payment self
  simp only [deposit, ensures_revertIf_bind, ensures_updatePool_bind, ensures_reads_bind,
    ensures_arith_bind]
  refine ⟨positive, pool, accrued, credit, readPool, computed, opened, user, readUser,
    newAmount, sum, ?_⟩
  split
  · rename_i noStake
    have nothing := nothing_pending (U256.isZero_iff.mp noStake) mul div owed
    have alike := DepositPayment.alike full supply claimed pulled (.pendingZero nothing)
    simp only [firstDeposit, ensures_arith_bind, ensures_reads_bind, ensures_quiet_bind]
    obtain ⟨possible, pays⟩ := alike
    refine ⟨totalStaked, added, newProduct, newMul, precision, power, rewardDebt, newDiv,
      selfHash, known, possible, fun e answered => ?_⟩
    rw [ensures_updates_bind]
    refine ⟨storage', written, ?_⟩
    rw [ensures_record]
    exact ⟨rfl, pays e answered⟩
  · simp only [topUpDeposit, ensures_arith_bind]
    refine ⟨precision, power, product, mul, quotient, div, pending, owed, totalStaked, added,
      newProduct, newMul, rewardDebt, newDiv, ?_⟩
    rw [ensures_bind]
    have pays : ∀ requests, DepositPayment selfHash context.caller pending amount
        accrued.rewardToken accrued.stakingToken requests →
        Answerable answer requests w.outside
          (PaysAlike balances allowances w.outside e₂) :=
      fun _ payment => payment.alike full supply claimed pulled
    refine Ensures.mono ?_ (ensures_payDeposit self pays)
    intro _ v paid
    obtain ⟨e, alike, rfl⟩ := paid
    rw [ensures_updates_bind]
    refine ⟨storage', written, ?_⟩
    rw [ensures_record_bind, ensures_record]
    exact ⟨rfl, alike⟩

theorem ensures_withdraw (full : FullErc20 selfHash answer balances allowances)
    (supply : SupplyWithin (2 ^ 256 - 1) (balances w.outside))
    (run : Runs (Quiet answer) (plainWithdraw context amount poolId) w () plain) :
    Ensures (Quiet answer) (withdraw context amount poolId) w fun _ netted =>
      Netted balances allowances w plain netted := by
  simp only [plainWithdraw, runs_revertIf_bind, runs_updatePool_bind, runs_reads_bind,
    runs_arith_bind] at run
  obtain ⟨positive, user, readUser, pool, accrued, credit, readPool, computed, staked,
    newAmount, remains, precision, power, product, mul, quotient, div, pending, owed,
    totalStaked, taken, newProduct, newMul, rewardDebt, newDiv, rest⟩ := run
  obtain ⟨u, payment, finish⟩ := runs_unit_bind.mp rest
  obtain ⟨storage', written, rfl⟩ := runs_updates.mp finish
  obtain ⟨e₁, e₂, claimed, pushed, rfl⟩ := runs_payThenPush payment
  simp only [withdraw, ensures_revertIf_bind, ensures_updatePool_bind, ensures_reads_bind,
    ensures_arith_bind]
  refine ⟨positive, user, readUser, pool, accrued, credit, readPool, computed, staked,
    newAmount, remains, precision, power, product, mul, quotient, div, pending, owed,
    totalStaked, taken, newProduct, newMul, rewardDebt, newDiv, ?_⟩
  rw [ensures_bind]
  have pays : ∀ requests, WithdrawPayment context.caller pending amount
      accrued.rewardToken accrued.stakingToken requests →
      Answerable answer requests w.outside
        (PaysAlike balances allowances w.outside e₂) :=
    fun _ payment => payment.alike full supply claimed pushed
  refine Ensures.mono ?_ (ensures_payWithdraw (sum_fits full supply claimed pushed) pays)
  intro _ v paid
  obtain ⟨e, alike, rfl⟩ := paid
  rw [ensures_updates_bind]
  refine ⟨storage', written, ?_⟩
  rw [ensures_record_bind, ensures_record]
  exact ⟨rfl, alike⟩

/-- A first deposit of an account without debt is a plain one. -/
theorem plainDeposit_of_first (full : FullErc20 selfHash answer balances allowances)
    (supply : SupplyWithin (2 ^ 256 - 1) (balances w.outside))
    (self : w.storage.selfContractHash = some selfHash) {user : UserInfo}
    (readUser : getUserInfoForPool context poolId w.storage = .ok user)
    (noStake : user.amount.toNat = 0) (noDebt : user.rewardDebt.toNat = 0)
    {v : StakeWorld E} (run : Runs (Quiet answer) (deposit context amount poolId) w () v) :
    ∃ u, Runs (Quiet answer) (plainDeposit context amount poolId) w () u := by
  have known : selfContractHash w.storage = .ok selfHash := selfContractHash_eq_ok.mpr self
  simp only [deposit, runs_revertIf_bind, runs_updatePool_bind, runs_reads_bind,
    runs_arith_bind, readUser, Except.ok.injEq, exists_eq_left',
    if_pos (U256.isZero_iff.mpr noStake), firstDeposit, runs_request_bind, runs_updates_bind,
    known] at run
  obtain ⟨positive, pool, accrued, credit, readPool, computed, opened, newAmount, sum,
    totalStaked, added, newProduct, newMul, precision, power, rewardDebt, newDiv, _,
    ⟨e, pulled, rfl⟩, storage', written, -⟩ := run
  have nothing : ∃ e₁, answer (InteractErc20.transfer accrued.rewardToken context.caller
      U256.zero) w.outside e₁ :=
    full.exists_transfer (pair_fits supply) (Nat.zero_le _)
  obtain ⟨e₁, claimed⟩ := nothing
  obtain ⟨sameBalances, sameAllowances⟩ := paid_nothing full rfl claimed
  have room : balances e₁ accrued.stakingToken (.contract selfHash) +
      balances e₁ accrued.stakingToken (.account context.caller) < 2 ^ 256 :=
    sameBalances ▸ pair_fits supply
  obtain ⟨⟨e₂, pulled'⟩, -⟩ :=
    pull_again full room sameBalances.symm sameAllowances.symm pulled
  refine ⟨{ storage := storage', outside := e₂, log := w.log ++ creditEvents poolId credit },
    ?_⟩
  simp only [plainDeposit, runs_revertIf_bind, runs_updatePool_bind, runs_reads_bind,
    runs_arith_bind, payThenPull]
  refine ⟨positive, pool, accrued, credit, readPool, computed, opened, user, readUser,
    newAmount, sum, precision, power, U256.zero, ?_, U256.zero, ?_, U256.zero, ?_,
    totalStaked, added, newProduct, newMul, rewardDebt, newDiv, ?_⟩
  · simp [U256.checkedMul_eq_some, noStake]
  · exact U256.checkedDiv_eq_some.mpr
      ⟨(U256.checkedDiv_eq_some.mp newDiv).1, (Nat.zero_div _).symm⟩
  · simp [U256.checkedSub_eq_some, noDebt]
  · rw [runs_unit_bind]
    refine ⟨⟨w.storage, e₂, w.log ++ creditEvents poolId credit⟩, ?_,
      runs_updates.mpr ⟨storage', written, rfl⟩⟩
    simp only [runs_request_bind, runs_reads_bind, runs_request]
    exact ⟨_, ⟨e₁, claimed, rfl⟩, selfHash, known, e₂, pulled', rfl⟩

end Settle

/-! ## Records without stake -/

/-- No record without stake has a debt. -/
def Book.NoIdleDebt (book : Book) : Prop :=
  ∀ key, (book.user key).amount.toNat = 0 → (book.user key).rewardDebt.toNat = 0

theorem Book.NoIdleDebt.putUser {book : Book} (noDebt : book.NoIdleDebt) (key : RecordKey)
    {user : UserInfo} (own : user.amount.toNat = 0 → user.rewardDebt.toNat = 0) :
    (book.putUser key user).NoIdleDebt := by
  intro other
  rw [Book.putUser_user]
  split
  · exact own
  · exact noDebt other

theorem Change.noIdleDebt {context : Context} {book book' : Book} {call : Call}
    {requests : List TokenCall} {events : List Event}
    (change : Change context book call requests events book') (noDebt : book.NoIdleDebt) :
    book'.NoIdleDebt := by
  cases change with
  | addPool => exact noDebt
  | @settle _ poolId pool accrued credit user' totalStaked _ _ valid found accrual settled
      debt staked =>
      have before : (book.putPool poolId { accrued with totalStaked }).NoIdleDebt := noDebt
      refine before.putUser _ fun noStake => ?_
      rw [debt]
      exact StakePool.earned_eq_zero noStake
  | @emergencyWithdraw poolId pool amount totalStaked =>
      have before : (book.putPool poolId { pool with totalStaked }).NoIdleDebt := noDebt
      exact before.putUser _ fun _ => rfl
  | stopReward => exact noDebt
  | saveMe => exact noDebt
  | setAdmin => exact noDebt

section Runs

variable {E : Type} {around : Surroundings E} {permitted : Context → Call → Storage → Prop}
  {admin : AccountHash} {start : UInt64} {outside : E} {moment : Moment E}

theorem Run.noIdleDebt (run : Run around permitted (installed admin start outside) moment)
    {context : Context} {poolId : UInt64} {user : UserInfo}
    (readUser : getUserInfoForPool context poolId moment.world.storage = .ok user)
    (noStake : user.amount.toNat = 0) : user.rewardDebt.toNat = 0 := by
  have invariant : Invariant around permitted fun _ book _ _ => book.NoIdleDebt := {
    wait := fun noDebt _ => noDebt
    drift := fun noDebt _ => noDebt
    change := fun noDebt _ _ _ change _ => change.noIdleDebt noDebt }
  rcases run.from_installed invariant (fun _ _ _ _ _ _ => rfl) with ⟨-, admin', fresh⟩ |
    ⟨book, represents, noDebt⟩
  · rw [fresh] at readUser
    exact absurd readUser getUserInfo_installed
  · obtain ⟨-, rfl⟩ := represents.getUserInfoForPool_eq_ok.mp readUser
    exact noDebt _ noStake

variable {L : Type} {package : ContractPackageHash} {answer : TokenCall → L → L → Prop}
  {balances : L → Balances} {allowances : L → Allowances}

/-- With the records of any reachable state and any ledger of standard tokens whose
supply fits into a word, `deposit` and `withdraw` realize the plain programs, and every
first deposit is a plain one. -/
theorem netted_payout (full : FullErc20 package answer balances allowances)
    (run : Run around unrestricted (installed admin start outside) moment)
    {w : StakeWorld L} (reached : w.storage = moment.world.storage)
    (self : w.storage.selfContractHash = some package)
    (supply : SupplyWithin (2 ^ 256 - 1) (balances w.outside))
    (context : Context) (amount : U256) (poolId : UInt64) :
    Realizes answer balances allowances w (plainDeposit context amount poolId)
        (deposit context amount poolId) ∧
      Realizes answer balances allowances w (plainWithdraw context amount poolId)
        (withdraw context amount poolId) ∧
      ∀ user v, getUserInfoForPool context poolId w.storage = .ok user →
        user.amount.toNat = 0 →
        Runs (Quiet answer) (deposit context amount poolId) w () v →
          ∃ u, Runs (Quiet answer) (plainDeposit context amount poolId) w () u := by
  refine ⟨realizes_of_ensures fun u => ensures_deposit full supply self,
    realizes_of_ensures fun u => ensures_withdraw full supply, ?_⟩
  intro user v readUser noStake deposits
  have noDebt := run.noIdleDebt (reached ▸ readUser) noStake
  exact plainDeposit_of_first full supply self readUser noStake noDebt deposits

end Runs

section Sample

open Sample

/-- A stake in a pool whose two tokens are the same. -/
def earning : Moment Erc20Ledger :=
  after unrestricted
    [setUp, (10, owner, .addPool tokenA tokenA 100 200 18 (units 1000)),
      (20, staker 1, .deposit (units 10) 0)]
    opening (by decide +kernel)

private theorem run_earning : Run around unrestricted opening earning :=
  run_after _

/-- The contract has the reward and the stake, and the staker a little. -/
def purse : Erc20Ledger where
  balance := fun _ holder =>
    (if holder = .contract package then 1010 else 0) +
      if holder = .account (staker 1) then 20 else 0
  allowance := fun _ _ _ => 20

private theorem supply_purse : SupplyWithin (2 ^ 256 - 1) purse.balance := by
  intro token holders
  have contract : (∑ holder ∈ holders,
      if holder = .contract package then 1010 else 0) ≤ 1010 := by
    rw [Finset.sum_ite_eq']
    split <;> omega
  have account : (∑ holder ∈ holders,
      if holder = .account (staker 1) then 20 else 0) ≤ 20 := by
    rw [Finset.sum_ite_eq']
    split <;> omega
  simp only [purse, Finset.sum_add_distrib]
  omega

def saving : StakeWorld Erc20Ledger where
  storage := earning.world.storage
  outside := purse
  log := []

/-- Half of the reward is pending, so a deposit of four pays the staker. -/
theorem netted_payout_saving :
    ∃ plain netted,
      Runs (Quiet around.answer)
        (plainDeposit { caller := staker 1, blocktime := 150 } (units 4) 0) saving () plain ∧
      Runs (Quiet around.answer)
        (deposit { caller := staker 1, blocktime := 150 } (units 4) 0) saving () netted ∧
      Netted Erc20Ledger.balance Erc20Ledger.allowance saving plain netted := by
  have evaluates : ((plainDeposit { caller := staker 1, blocktime := 150 } (units 4) 0).exec
      (quietly (Erc20Ledger.answer package)) saving).isSome := by decide +kernel
  obtain ⟨⟨⟨⟩, plain⟩, evaluated⟩ := Option.isSome_iff_exists.mp evaluates
  have run : Runs (Quiet around.answer)
      (plainDeposit { caller := staker 1, blocktime := 150 } (units 4) 0) saving () plain :=
    runs_of_exec (fun _ _ _ => quiet_of_quietly) evaluated
  have realizes := (netted_payout (Erc20Ledger.full package) run_earning
    (show saving.storage = earning.world.storage from rfl) (by decide +kernel) supply_purse
    { caller := staker 1, blocktime := 150 } (units 4) 0).1
  obtain ⟨-, ⟨netted, succeeds⟩, same⟩ := realizes plain run
  exact ⟨plain, netted, run, succeeds, same netted succeeds⟩

end Sample

end CasperContracts.Staking
