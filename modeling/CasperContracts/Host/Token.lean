import CasperContracts.Host.Types

/-!
# Token contracts

The two requests the contracts send to a token, the law of a standard ERC20
token (`StandardErc20`: a request moves exactly its amount or fails), and an
executable ledger that obeys it.
-/

namespace CasperContracts.Host

open CasperContracts.Basis

inductive Address where
  | account (hash : AccountHash)
  | contract (hash : ContractPackageHash)
  deriving DecidableEq

/-- The calls made through `interact_erc20`. -/
inductive TokenCall where
  | transferFrom (token : ContractHash) (owner recipient : Address) (amount : U256)
  | transfer (token : ContractHash) (recipient : Address) (amount : U256)
  deriving DecidableEq

def TokenCall.token : TokenCall → ContractHash
  | .transferFrom token _ _ _ => token
  | .transfer token _ _ => token

/-- What a request brings an account in a token. -/
def TokenCall.brings (token : ContractHash) (account : AccountHash) : TokenCall → ℤ
  | .transferFrom token' owner _ amount =>
      if token' = token ∧ owner = .account account then -(amount.toNat : ℤ) else 0
  | .transfer token' recipient amount =>
      if token' = token ∧ recipient = .account account then amount.toNat else 0

namespace InteractErc20

def transferFrom (hashToken : ContractHash) (owner : AccountHash)
    (spender : ContractPackageHash) (amount : U256) : TokenCall :=
  .transferFrom hashToken (.account owner) (.contract spender) amount

def transfer (hashToken : ContractHash) (recipient : AccountHash)
    (amount : U256) : TokenCall :=
  .transfer hashToken (.account recipient) amount

end InteractErc20

abbrev Balances := ContractHash → Address → Nat

/-- `amount` of `token` has moved from `source` to `target`, and nothing else. -/
def Moves (before after : Balances) (token : ContractHash)
    (source target : Address) (amount : Nat) : Prop :=
  ∀ token' holder,
    (after token' holder : ℤ) + (if token' = token ∧ holder = source then (amount : ℤ) else 0) =
      before token' holder + (if token' = token ∧ holder = target then (amount : ℤ) else 0)

/-- Tokens, seen from the contract `package`, that move exactly the requested
amount or fail, and that leave the contract alone. -/
structure StandardErc20 {E : Type} (package : ContractPackageHash)
    (answer : TokenCall → E → E → Prop) (balances : E → Balances) : Prop where
  transfer : ∀ {token recipient amount e e'},
    answer (.transfer token recipient amount) e e' →
      Moves (balances e) (balances e') token (.contract package) recipient amount.toNat
  transferFrom : ∀ {token owner recipient amount e e'},
    answer (.transferFrom token owner recipient amount) e e' →
      Moves (balances e) (balances e') token owner recipient amount.toNat

/-- `amount` has moved from `source` to `target` between the holders of one token. -/
def MovesWithin (before after : Address → Nat) (source target : Address) (amount : Nat) :
    Prop :=
  ∀ holder, (after holder : ℤ) + (if holder = source then (amount : ℤ) else 0) =
    before holder + (if holder = target then (amount : ℤ) else 0)

/-- One token among others, seen from the contract `package`: it moves exactly the
requested amount or fails, and nothing else takes from the contract's balance. -/
structure StandardToken {E : Type} (package : ContractPackageHash) (token : ContractHash)
    (answer : TokenCall → E → E → Prop) (drift : E → E → Prop)
    (balance : E → Address → Nat) : Prop where
  transfer : ∀ {recipient amount e e'}, answer (.transfer token recipient amount) e e' →
    MovesWithin (balance e) (balance e') (.contract package) recipient amount.toNat
  transferFrom : ∀ {owner recipient amount e e'},
    answer (.transferFrom token owner recipient amount) e e' →
      MovesWithin (balance e) (balance e') owner recipient amount.toNat
  others : ∀ {c e e'}, answer c e e' → c.token ≠ token →
    balance e (.contract package) ≤ balance e' (.contract package)
  drift : ∀ {e e'}, drift e e' →
    balance e (.contract package) ≤ balance e' (.contract package)

/-- Each of several standard tokens, among callers that take nothing from the contract. -/
theorem StandardErc20.standardToken {E : Type} {package : ContractPackageHash}
    {answer : TokenCall → E → E → Prop} {drift : E → E → Prop} {balances : E → Balances}
    (standard : StandardErc20 package answer balances) (token : ContractHash)
    (drifts : ∀ {e e'}, drift e e' →
      balances e token (.contract package) ≤ balances e' token (.contract package)) :
    StandardToken package token answer drift fun e => balances e token where
  transfer := by
    intro recipient amount e e' answered holder
    simpa using standard.transfer answered token holder
  transferFrom := by
    intro owner recipient amount e e' answered holder
    simpa using standard.transferFrom answered token holder
  others := by
    intro c e e' answered other
    have moved : ∃ source target amount,
        Moves (balances e) (balances e') c.token source target amount := by
      cases c with
      | transfer => exact ⟨_, _, _, standard.transfer answered⟩
      | transferFrom => exact ⟨_, _, _, standard.transferFrom answered⟩
    obtain ⟨source, target, amount, moves⟩ := moved
    have same := moves token (.contract package)
    simp only [Ne.symm other, false_and, if_false, add_zero] at same
    omega
  drift := drifts

structure Erc20Ledger where
  balance : Balances
  allowance : ContractHash → Address → Address → Nat

namespace Erc20Ledger

/-- Every account owns `supply` of every token and lets every contract spend it. -/
def endowed (supply : Nat) : Erc20Ledger where
  balance := fun _ holder =>
    match holder with
    | .account _ => supply
    | .contract _ => 0
  allowance := fun _ _ _ => supply

/-- Move `amount` between two holders; a holder's transfer to itself and a
transfer of nothing succeed without effect. -/
def move (ledger : Erc20Ledger) (token : ContractHash) (source target : Address)
    (amount : Nat) : Except Failure Erc20Ledger :=
  if source = target ∨ amount = 0 then
    .ok ledger
  else if ledger.balance token source < amount then
    .error (.revert (.user 65534))
  else if 2 ^ 256 ≤ ledger.balance token target + amount then
    .error (.revert (.user 65532))
  else
    .ok { ledger with
      balance := fun token' holder =>
        if token' = token ∧ holder = source then
          ledger.balance token source - amount
        else if token' = token ∧ holder = target then
          ledger.balance token target + amount
        else
          ledger.balance token' holder }

def answer (self : ContractPackageHash) :
    TokenCall → Erc20Ledger → Except Failure Erc20Ledger
  | .transfer token recipient amount, ledger =>
      ledger.move token (.contract self) recipient amount.toNat
  | .transferFrom token owner recipient amount, ledger =>
      if ledger.allowance token owner (.contract self) < amount.toNat then
        .error (.revert (.user 65533))
      else do
        let moved ← ledger.move token owner recipient amount.toNat
        .ok { moved with
          allowance := fun token' holder spender =>
            if token' = token ∧ holder = owner ∧ spender = .contract self then
              ledger.allowance token owner (.contract self) - amount.toNat
            else
              moved.allowance token' holder spender }

theorem moves_of_move {ledger ledger' : Erc20Ledger} {token : ContractHash}
    {source target : Address} {amount : Nat}
    (success : ledger.move token source target amount = .ok ledger') :
    Moves ledger.balance ledger'.balance token source target amount := by
  unfold move at success
  intro token' holder
  split at success
  · rename_i trivially
    cases success
    rcases trivially with rfl | rfl <;> simp
  · rename_i proper
    split at success
    · cases success
    · rename_i enough
      split at success
      · cases success
      · cases success
        simp only [not_or] at proper
        by_cases atSource : token' = token ∧ holder = source
        · obtain ⟨rfl, rfl⟩ := atSource
          simp only [and_self, if_true, proper.1, and_false, if_false]
          omega
        · by_cases atTarget : token' = token ∧ holder = target
          · obtain ⟨rfl, rfl⟩ := atTarget
            have notSource : holder ≠ source := fun same => proper.1 same.symm
            simp [notSource]
          · simp [atSource, atTarget]

theorem standard (self : ContractPackageHash) :
    StandardErc20 self (fun call e e' => answer self call e = .ok e')
      Erc20Ledger.balance where
  transfer := moves_of_move
  transferFrom := by
    intro token owner recipient amount e e' answered
    simp only [answer] at answered
    split at answered
    · cases answered
    · simp only [bind_eq_ok, Except.ok.injEq] at answered
      obtain ⟨moved, success, rfl⟩ := answered
      change Moves e.balance moved.balance token owner recipient amount.toNat
      exact moves_of_move success

/-- Every token of the ledger is a standard one, when nothing happens in between. -/
theorem standardToken (self : ContractPackageHash) (token : ContractHash) :
    StandardToken self token (fun call e e' => answer self call e = .ok e')
      (fun e e' => e' = e) (fun ledger => ledger.balance token) :=
  (standard self).standardToken token fun same => by rw [same]

end Erc20Ledger

end CasperContracts.Host
