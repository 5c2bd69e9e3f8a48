import CasperContracts.Vesting.Run

/-!
# All locks are backed

All locks in a token share the contract's balance of it.  The sum of what
remains of them, over the whole dictionary, never exceeds that balance: `lock`
divides no more than it has received, and `claim` pays what it zeroes.
-/

namespace CasperContracts.Vesting

open CasperContracts.Basis Host Prog

def owedBytes (token : ContractHash) (bytes : List UInt8) : Nat :=
  match VestInfo.unpack bytes with
  | .ok lock => if lock.tokenHash = token then remaining lock.schedules else 0
  | .error _ => 0

def owedIn (token : ContractHash) (storage : Storage) : Nat :=
  storage.lockInfos.elim 0 (FiniteStore.total fun _ bytes => owedBytes token bytes)

/-- What all live locks but one owe in a token. -/
def owedByOthers (token : ContractHash) (lockId : UInt64) (storage : Storage) : Nat :=
  storage.lockInfos.elim 0 (FiniteStore.total fun key bytes =>
    if (makeLockKeyId lockId storage).toOption = some key then 0 else owedBytes token bytes)

def owed (token : ContractHash) : Option VestInfo → Nat
  | some lock => if lock.tokenHash = token then remaining lock.schedules else 0
  | none => 0

section Sums

variable {token : ContractHash} {storage : Storage} {book : Book} {lockId : UInt64}
  {lock : VestInfo} {entry : Option VestInfo}

private theorem owedBytes_entryBytes (entry : Option VestInfo) :
    owedBytes token (entryBytes entry) = owed token entry := by
  cases entry with
  | none => rfl
  | some lock => simp [owedBytes, entryBytes, owed]

theorem owedIn_eq (represents : Represents storage book) :
    owedIn token storage =
      FiniteStore.total (fun _ entry => owed token entry) book.entries := by
  obtain ⟨dictionary, stored, encodes⟩ := represents.entries
  rw [owedIn, stored, Option.elim_some, encodes.total (numberedKey_injective _)]
  simp only [owedBytes_entryBytes]

theorem owedByOthers_eq (represents : Represents storage book) :
    owedByOthers token lockId storage =
      FiniteStore.total (fun other entry => if other = lockId then 0 else owed token entry)
        book.entries := by
  obtain ⟨dictionary, stored, encodes⟩ := represents.entries
  rw [owedByOthers, stored, Option.elim_some, encodes.total (numberedKey_injective _),
    represents.makeLockKeyId_eq]
  simp only [owedBytes_entryBytes, Except.toOption, Option.some.injEq,
    (numberedKey_injective _).eq_iff, eq_comm]

theorem remaining_add_owedByOthers (represents : Represents storage book)
    (found : book.lock lockId = some lock) (inToken : lock.tokenHash = token) :
    remaining lock.schedules + owedByOthers token lockId storage = owedIn token storage := by
  have split := FiniteStore.total_eq_add (fun _ entry => owed token entry)
    (Book.lock_eq_some.mp found)
  rw [owedIn_eq represents, owedByOthers_eq represents, split, owed, if_pos inToken]

/-- One write trades what the old entry owed for what the new one owes. -/
theorem total_putEntry (token : ContractHash) (book : Book) (lockId : UInt64)
    (entry : Option VestInfo) :
    FiniteStore.total (fun _ entry => owed token entry) (book.putEntry lockId entry).entries +
        owed token (book.lock lockId) =
      FiniteStore.total (fun _ entry => owed token entry) book.entries + owed token entry := by
  have traded := FiniteStore.total_insert (fun _ entry => owed token entry) book.entries lockId
    entry
  have old : (book.entries.lookup lockId).elim 0 (owed token) =
      owed token (book.lock lockId) := by
    rw [Book.lock]
    cases book.entries.lookup lockId with
    | none => rfl
    | some entry => cases entry <;> rfl
  rw [old] at traded
  exact traded

theorem total_replace (token : ContractHash) (lock' : VestInfo)
    (found : book.lock lockId = some lock) (sameToken : lock'.tokenHash = lock.tokenHash) :
    FiniteStore.total (fun _ entry => owed token entry)
        (book.putEntry lockId (some lock')).entries +
        (if lock.tokenHash = token then remaining lock.schedules else 0) =
      FiniteStore.total (fun _ entry => owed token entry) book.entries +
        if lock.tokenHash = token then remaining lock'.schedules else 0 := by
  have traded := total_putEntry token book lockId (some lock')
  rw [found, owed, owed, sameToken] at traded
  exact traded

theorem total_stored (token : ContractHash) {caller : AccountHash} {left : VestInfo} {book' : Book}
    (stored : Stored book caller lockId left book') (found : book.lock lockId = some lock)
    (sameToken : left.tokenHash = lock.tokenHash) :
    FiniteStore.total (fun _ entry => owed token entry) book'.entries +
        (if lock.tokenHash = token then remaining lock.schedules else 0) =
      FiniteStore.total (fun _ entry => owed token entry) book.entries +
        if lock.tokenHash = token then remaining left.schedules else 0 := by
  cases stored with
  | part some => exact total_replace token left found sameToken
  | finished nothing listed =>
      have traded := total_putEntry token book lockId none
      rw [found, owed, owed] at traded
      rw [nothing, ite_self]
      exact traded

end Sums

/-! ## The balance -/

section Balance

variable {E : Type} {package : ContractPackageHash} {token : ContractHash}
  {answer : TokenCall → E → E → Prop} {drift : E → E → Prop} {balance : E → Address → Nat}

/-- The book's locks are covered by the contract's balance, and deposits go to the
contract itself. -/
structure Backed (package : ContractPackageHash) (token : ContractHash)
    (balance : E → Address → Nat) (book : Book) (e : E) : Prop where
  self : book.selfHash = package
  covered : FiniteStore.total (fun _ entry => owed token entry) book.entries ≤
    balance e (.contract package)

variable {context : Context} {book book' : Book} {call : Call} {requests : List TokenCall}
  {events : List Event} {e e' : E}

private theorem deposit_raises (standard : StandardToken package token answer drift balance)
    {tokh : ContractHash} {caller : AccountHash} {amount : U256}
    (answered : answer (InteractErc20.transferFrom tokh caller package amount) e e') :
    balance e (.contract package) + (if tokh = token then amount.toNat else 0) ≤
      balance e' (.contract package) := by
  by_cases inToken : tokh = token
  · subst inToken
    have moved := standard.transferFrom answered (.contract package)
    simp at moved
    simp
    omega
  · rw [if_neg inToken]
    exact standard.others answered inToken

private theorem payment_lowers (standard : StandardToken package token answer drift balance)
    {tokenHash : ContractHash} {payee : AccountHash} {amount : U256}
    (answered : answer (InteractErc20.transfer tokenHash payee amount) e e') :
    balance e (.contract package) ≤
      balance e' (.contract package) + if tokenHash = token then amount.toNat else 0 := by
  by_cases inToken : tokenHash = token
  · subst inToken
    have moved := standard.transfer answered (.contract package)
    simp at moved
    simp
    omega
  · rw [if_neg inToken]
    exact standard.others answered inToken

theorem Backed.change (backed : Backed package token balance book e)
    (standard : StandardToken package token answer drift balance)
    (change : Change context book call requests events book')
    (answered : Answers answer requests e e') : Backed package token balance book' e' := by
  have covered := backed.covered
  cases change with
  | @lock tokh cliffAmount _ _ _ info unpaused new =>
      have raised := deposit_raises standard (backed.self ▸ answers_singleton.mp answered)
      have traded := total_putEntry token book book.index (some info)
      have parts := remaining_newSchedules_le new.schedules
      rw [owed, new.tokenHash] at traded
      refine ⟨backed.self, ?_⟩
      change FiniteStore.total _ (book.putEntry book.index (some info)).entries ≤ _
      by_cases inToken : tokh = token
      · rw [if_pos inToken] at raised traded
        omega
      · rw [if_neg inToken] at raised traded
        omega
  | @extendLock lockId index newRelease lock schedule access here later =>
      have traded := total_replace token { lock with
        schedules := lock.schedules.set index.toNat { schedule with release := newRelease } }
        access.found rfl
      rw [remaining_set here] at traded
      rw [answers_nil.mp answered]
      exact ⟨backed.self, by omega⟩
  | @transferLock lockId newOwner lock idx access listed =>
      have traded := total_replace token { lock with recipient := newOwner } access.found rfl
      dsimp only at traded
      rw [answers_nil.mp answered]
      refine ⟨backed.self, ?_⟩
      change FiniteStore.total _ (book.putEntry lockId _).entries ≤ _
      omega
  | @claim lockId lock amount _ access paid nonzero stored =>
      have lowered := payment_lowers standard (answers_singleton.mp answered)
      have traded := total_stored token stored access.found rfl
      have self : book'.selfHash = book.selfHash := by cases stored <;> rfl
      refine ⟨self.trans backed.self, ?_⟩
      by_cases inToken : lock.tokenHash = token
      · rw [if_pos inToken] at lowered
        rw [if_pos inToken, if_pos inToken] at traded
        omega
      · rw [if_neg inToken] at lowered
        rw [if_neg inToken, if_neg inToken] at traded
        omega
  | setAdmin admin =>
      rw [answers_nil.mp answered]
      exact ⟨backed.self, covered⟩
  | setPauseContract admin =>
      rw [answers_nil.mp answered]
      exact ⟨backed.self, covered⟩

private theorem backed_law (standard : StandardToken package token answer drift balance) :
    Law answer drift fun book e _ => Backed package token balance book e where
  drift := fun backed drifts => ⟨backed.self, le_trans backed.covered (standard.drift drifts)⟩
  change := fun _ backed change answered => backed.change standard change answered

variable {start now : UInt64} {first w : VestWorld E} {admin : AccountHash} {paused : Bool}
  {steps : List (Step Context Call Storage E Event)}

/-- In every state of a run of a contract that knows its own hash, the contract owns
at least what remains of all live locks in a standard token; so whatever a claim
pays for one of them is there, on top of what remains of all others. -/
theorem locks_backed (standard : StandardToken package token answer drift balance)
    (initialised : first.storage = .initialised admin paused package)
    (empty : first.log = [])
    (history : VestHistory answer drift start first steps now w) (few : FewLocks w.log) :
    owedIn token w.storage ≤ balance w.outside (.contract package) ∧
    ∀ lockId lock, storedLock lockId w.storage = some lock → lock.tokenHash = token →
      ∀ timestamp amount after,
        claimSchedules timestamp lock.schedules U256.zero = some (amount, after) →
        amount.toNat + owedByOthers token lockId w.storage ≤
          balance w.outside (.contract package) := by
  have represents : Represents first.storage (.empty admin paused package) := by
    rw [initialised]
    exact represents_initialised admin paused package
  have sound : Sound (.empty admin paused package) first.log := by
    rw [empty]
    exact sound_empty
  have backed : Backed package token balance (.empty admin paused package) first.outside :=
    ⟨rfl, Nat.zero_le _⟩
  obtain ⟨book, representsW, -, backedW⟩ :=
    (backed_law standard).onward represents sound backed history few
  have covered := backedW.covered
  rw [← owedIn_eq representsW] at covered
  refine ⟨covered, fun lockId lock stored inToken timestamp amount after loop => ?_⟩
  rw [representsW.storedLock_eq] at stored
  have split := remaining_add_owedByOthers representsW stored inToken
  have paid := (claimSchedules_eq_some loop).2
  rw [U256.toNat_zero] at paid
  omega

end Balance

section Sample

open Sample Staking.Sample

/-- Two stakers lock the same token, and the first claims a part. -/
def shared : VestWorld Erc20Ledger :=
  after
    [(10, staker 1, .lock tokenA (units 30) 90 50 3),
      (10, staker 2, .lock tokenA (units 20) 90 50 2), (150, staker 1, .claim 0)]
    0 ready (by decide +kernel)

theorem locks_backed_shared :
    owedIn tokenA shared.storage ≤ shared.outside.balance tokenA (.contract package) := by
  obtain ⟨steps, later, history⟩ :
      ∃ steps later, VestHistory answer drift 0 ready steps later shared :=
    history_after _
  have standard : StandardToken package tokenA answer drift fun ledger =>
      ledger.balance tokenA := Erc20Ledger.standardToken package tokenA
  exact (locks_backed standard rfl rfl history (by decide +kernel)).1

end Sample

end CasperContracts.Vesting
