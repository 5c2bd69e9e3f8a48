import Mathlib.Algebra.BigOperators.Group.Finset.Basic
import Mathlib.Algebra.BigOperators.Group.Finset.Piecewise
import Mathlib.Algebra.Order.BigOperators.Group.Finset
import CasperContracts.Host.Token

/-!
# Tokens with a supply

A standard token in full: it also pays whenever it can, and keeps the allowances.
With a bounded supply nobody's balance overflows.  Moves between two holders can be
netted.
-/

namespace CasperContracts.Host

open CasperContracts.Basis

abbrev Allowances := ContractHash → Address → Address → Nat

/-- `spender` has used `amount` of what `owner` allows, and nothing else has changed. -/
def Spends (before after : Allowances) (token : ContractHash) (owner spender : Address)
    (amount : Nat) : Prop :=
  ∀ token' owner' spender', after token' owner' spender' +
      (if token' = token ∧ owner' = owner ∧ spender' = spender then amount else 0) =
    before token' owner' spender'

/-- No set of holders has more than `supply` of a token. -/
def SupplyWithin (supply : Nat) (balances : Balances) : Prop :=
  ∀ token (holders : Finset Address), ∑ holder ∈ holders, balances token holder ≤ supply

/-- A standard token that pays whenever the source has the amount, the allowance
covers it and the target's balance does not overflow. -/
structure FullErc20 {E : Type} (package : ContractPackageHash)
    (answer : TokenCall → E → E → Prop) (balances : E → Balances)
    (allowances : E → Allowances) : Prop extends StandardErc20 package answer balances where
  pays : ∀ {token recipient amount e},
    amount.toNat ≤ balances e token (.contract package) →
    balances e token recipient + amount.toNat < 2 ^ 256 →
      ∃ e', answer (.transfer token recipient amount) e e'
  collects : ∀ {token owner recipient amount e},
    amount.toNat ≤ balances e token owner →
    amount.toNat ≤ allowances e token owner (.contract package) →
    balances e token recipient + amount.toNat < 2 ^ 256 →
      ∃ e', answer (.transferFrom token owner recipient amount) e e'
  keeps : ∀ {token recipient amount e e'},
    answer (.transfer token recipient amount) e e' → allowances e' = allowances e
  spends : ∀ {token owner recipient amount e e'},
    answer (.transferFrom token owner recipient amount) e e' →
      Spends (allowances e) (allowances e') token owner (.contract package) amount.toNat

/-! ## Moves -/

namespace Moves

variable {before between after after' : Balances} {token : ContractHash}
  {source target : Address} {first second rest : Nat}

theorem unique (moves : Moves before after token source target first)
    (moves' : Moves before after' token source target first) : after = after' := by
  funext token' holder
  have one := moves token' holder
  have other := moves' token' holder
  omega

theorem eq_of_zero (moves : Moves before after token source target 0) :
    after = before := by
  funext token' holder
  have same := moves token' holder
  simpa using same

theorem le_source (moves : Moves before after token source target first)
    (apart : source ≠ target) : first ≤ before token source := by
  have taken := moves token source
  simp only [and_self, if_true, apart, and_false, if_false, add_zero] at taken
  omega

theorem at_other (moves : Moves before after token source target first)
    {token' : ContractHash} (other : token' ≠ token) (holder : Address) :
    after token' holder = before token' holder := by
  have same := moves token' holder
  simp only [other, false_and, if_false, add_zero] at same
  omega

theorem trans (moves : Moves before between token source target first)
    (more : Moves between after token source target second) :
    Moves before after token source target (first + second) := by
  intro token' holder
  have one := moves token' holder
  have other := more token' holder
  split_ifs at one other ⊢ <;> omega

/-- A move and a smaller one back. -/
theorem net (moves : Moves before between token source target first)
    (back : Moves between after token target source second)
    (difference : first = rest + second) : Moves before after token source target rest := by
  intro token' holder
  have one := moves token' holder
  have other := back token' holder
  split_ifs at one other ⊢ <;> omega

/-- A move and a larger one back. -/
theorem net_back (moves : Moves before between token source target first)
    (back : Moves between after token target source second)
    (difference : second = rest + first) : Moves before after token target source rest := by
  intro token' holder
  have one := moves token' holder
  have other := back token' holder
  split_ifs at one other ⊢ <;> omega

end Moves

namespace Spends

variable {before after after' : Allowances} {token : ContractHash} {owner spender : Address}
  {amount less : Nat}

theorem le (spends : Spends before after token owner spender amount) : after ≤ before := by
  intro token' owner' spender'
  have same := spends token' owner' spender'
  change after token' owner' spender' ≤ before token' owner' spender'
  omega

theorem le_granted (spends : Spends before after token owner spender amount) :
    amount ≤ before token owner spender := by
  have same := spends token owner spender
  simp only [and_self, if_true] at same
  omega

theorem unique (spends : Spends before after token owner spender amount)
    (spends' : Spends before after' token owner spender amount) : after = after' := by
  funext token' owner' spender'
  have one := spends token' owner' spender'
  have other := spends' token' owner' spender'
  omega

/-- Who spends less has more left. -/
theorem anti (spends : Spends before after token owner spender amount)
    (spends' : Spends before after' token owner spender less) (le : less ≤ amount) :
    after ≤ after' := by
  intro token' owner' spender'
  have more := spends token' owner' spender'
  have fewer := spends' token' owner' spender'
  change after token' owner' spender' ≤ after' token' owner' spender'
  split_ifs at more fewer <;> omega

end Spends

/-! ## Enough for everybody -/

section Supply

variable {supply : Nat} {balances : Balances} {token : ContractHash}

theorem SupplyWithin.pair (within : SupplyWithin supply balances) {holder other : Address}
    (apart : holder ≠ other) : balances token holder + balances token other ≤ supply := by
  have both := within token {holder, other}
  rwa [Finset.sum_pair apart] at both

theorem SupplyWithin.moves {after : Balances} {source target : Address} {amount : Nat}
    (within : SupplyWithin supply balances)
    (moves : Moves balances after token source target amount) : SupplyWithin supply after := by
  intro token' holders
  -- among holders that include both sides nothing is lost or gained
  let all := insert source (insert target holders)
  have both : source ∈ all ∧ target ∈ all := by simp [all]
  have kept : ∑ holder ∈ all, after token' holder = ∑ holder ∈ all, balances token' holder := by
    have each : ∀ holder ∈ all, after token' holder +
        (if token' = token then if holder = source then amount else 0 else 0) =
        balances token' holder +
          if token' = token then if holder = target then amount else 0 else 0 := by
      intro holder _
      have moved := moves token' holder
      split_ifs at moved ⊢ <;> simp_all <;> omega
    have sums := Finset.sum_congr (rfl : all = all) each
    rw [Finset.sum_add_distrib, Finset.sum_add_distrib] at sums
    by_cases inToken : token' = token
    · simp only [inToken, if_true, Finset.sum_ite_eq', both.1, both.2] at sums ⊢
      omega
    · simpa [inToken] using sums
  have more : ∑ holder ∈ holders, after token' holder ≤ ∑ holder ∈ all, after token' holder :=
    Finset.sum_le_sum_of_subset fun holder member =>
      Finset.mem_insert_of_mem (Finset.mem_insert_of_mem member)
  have most := within token' all
  omega

theorem SupplyWithin.answers {E : Type} {package : ContractPackageHash}
    {answer : TokenCall → E → E → Prop} {balances : E → Balances} {requests : List TokenCall}
    {e e' : E} (standard : StandardErc20 package answer balances)
    (within : SupplyWithin supply (balances e)) (answered : Prog.Answers answer requests e e') :
    SupplyWithin supply (balances e') := by
  induction answered with
  | nil => exact within
  | @cons c _ _ _ _ head _ ih =>
      apply ih
      cases c with
      | transfer => exact within.moves (standard.transfer head)
      | transferFrom => exact within.moves (standard.transferFrom head)

end Supply

namespace FullErc20

variable {E : Type} {package : ContractPackageHash} {answer : TokenCall → E → E → Prop}
  {balances : E → Balances} {allowances : E → Allowances} {e : E} {token : ContractHash}
  {amount : U256} {account : AccountHash}

/-- The contract can pay an account what it has. -/
theorem exists_transfer (full : FullErc20 package answer balances allowances)
    (shared : balances e token (.contract package) + balances e token (.account account) <
      2 ^ 256)
    (enough : amount.toNat ≤ balances e token (.contract package)) :
    ∃ e', answer (InteractErc20.transfer token account amount) e e' :=
  full.pays enough (by omega)

/-- The contract can collect from an account what it has and allows. -/
theorem exists_transferFrom (full : FullErc20 package answer balances allowances)
    (shared : balances e token (.contract package) + balances e token (.account account) <
      2 ^ 256)
    (enough : amount.toNat ≤ balances e token (.account account))
    (granted : amount.toNat ≤ allowances e token (.account account) (.contract package)) :
    ∃ e', answer (InteractErc20.transferFrom token account package amount) e e' :=
  full.collects enough granted (by omega)

end FullErc20

namespace Erc20Ledger

theorem exists_move {ledger : Erc20Ledger} {token : ContractHash} {source target : Address}
    {amount : Nat} (enough : amount ≤ ledger.balance token source)
    (room : ledger.balance token target + amount < 2 ^ 256) :
    ∃ ledger', ledger.move token source target amount = .ok ledger' := by
  unfold move
  split
  · exact ⟨_, rfl⟩
  · rw [if_neg (by omega), if_neg (by omega)]
    exact ⟨_, rfl⟩

theorem allowance_of_move {ledger ledger' : Erc20Ledger} {token : ContractHash}
    {source target : Address} {amount : Nat}
    (success : ledger.move token source target amount = .ok ledger') :
    ledger'.allowance = ledger.allowance := by
  unfold move at success
  split at success
  · cases success
    rfl
  · split at success
    · cases success
    · split at success
      · cases success
      · cases success
        rfl

/-- The executable ledger is a standard token in full. -/
theorem full (self : ContractPackageHash) :
    FullErc20 self (fun call e e' => answer self call e = .ok e') Erc20Ledger.balance
      Erc20Ledger.allowance where
  toStandardErc20 := standard self
  pays := exists_move
  collects := by
    intro token owner recipient amount e enough granted room
    obtain ⟨moved, success⟩ := exists_move enough room
    simp only [answer, if_neg (Nat.not_lt.mpr granted), success, bind_eq_ok,
      Except.ok.injEq, exists_eq_left', exists_eq']
  keeps := allowance_of_move
  spends := by
    intro token owner recipient amount e e' answered token' owner' spender'
    simp only [answer] at answered
    split at answered
    · cases answered
    · rename_i granted
      simp only [bind_eq_ok, Except.ok.injEq] at answered
      obtain ⟨moved, success, rfl⟩ := answered
      have kept := allowance_of_move success
      by_cases here : token' = token ∧ owner' = owner ∧ spender' = .contract self
      · obtain ⟨rfl, rfl, rfl⟩ := here
        simp only [and_self, if_true]
        omega
      · simp only [here, if_false, add_zero, kept]

end Erc20Ledger

end CasperContracts.Host
