import CasperContracts.Host.Supply
import CasperContracts.Vesting.Backing
import CasperContracts.Vesting.Ids
import CasperContracts.Basis.Specification

/-!
# All locks can be paid out

Safety says that the balance covers the locks; here the locks are emptied.  Once
everything is due, the recipients can claim one after the other in any order: each claim
goes through, each lock is cleared, and each recipient ends up with what remained.
-/

namespace CasperContracts.Vesting

open CasperContracts.Basis Host Prog

/-- What a lock has for an account in a token. -/
def dueTo (token : ContractHash) (account : AccountHash) (lock : VestInfo) : Nat :=
  if lock.tokenHash = token ∧ lock.recipient = account then remaining lock.schedules else 0

def claimBy (timestamp : UInt64) : UInt64 × VestInfo → Context × Call
  | (lockId, lock) => ({ caller := lock.recipient, blocktime := timestamp }, .claim lockId)

/-- A lock with something left, all of which is due. -/
structure Payable (timestamp : UInt64) (lock : VestInfo) : Prop where
  left : remaining lock.schedules ≠ 0
  due : ∀ s ∈ lock.schedules, s.release ≤ timestamp

section Claims

variable {E : Type} {package : ContractPackageHash} {answer : TokenCall → E → E → Prop}
  {drift : E → E → Prop} {balances : E → Balances} {allowances : E → Allowances}
variable {book : Book} {w : VestWorld E} {lockId timestamp : UInt64} {lock : VestInfo}

/-- An open contract whose locks are listed and backed, among accounts with room for
what it has. -/
structure Solvent (package : ContractPackageHash) (balances : E → Balances) (book : Book)
    (w : VestWorld E) : Prop where
  represents : Represents w.storage book
  sound : Sound book w.log
  few : FewLocks w.log
  listed : Listed book
  fits : Fits book
  unpaused : book.paused = false
  backed : ∀ token, Backed package token (fun e => balances e token) book w.outside
  room : ∀ token account, balances w.outside token (.contract package) +
    balances w.outside token (.account account) < 2 ^ 256

theorem Solvent.covers (solvent : Solvent package balances book w)
    (found : book.lock lockId = some lock) :
    remaining lock.schedules ≤ balances w.outside lock.tokenHash (.contract package) := by
  have covered := (solvent.backed lock.tokenHash).covered
  have split := FiniteStore.total_eq_add (fun _ entry => owed lock.tokenHash entry)
    (Book.lock_eq_some.mp found)
  rw [split, owed, if_pos rfl] at covered
  omega

/-- One claim goes through, pays what remains of the lock and clears it. -/
theorem Solvent.claim (solvent : Solvent package balances book w)
    (full : FullErc20 package answer balances allowances)
    (found : book.lock lockId = some lock) (payable : Payable timestamp lock) :
    ∃ book' w', Runs (Quiet answer)
        (claim { caller := lock.recipient, blocktime := timestamp } lockId) w () w' ∧
      Solvent package balances book' w' ∧
      (∀ other, book'.entries.lookup other =
        if other = lockId then some none else book.entries.lookup other) ∧
      Moves (balances w.outside) (balances w'.outside) lock.tokenHash (.contract package)
        (.account lock.recipient) (remaining lock.schedules) := by
  let context : Context := { caller := lock.recipient, blocktime := timestamp }
  obtain ⟨⟨amount, after⟩, loop⟩ :
      ∃ result, claimSchedules timestamp lock.schedules U256.zero = some result :=
    exists_claimSchedules (by simpa using solvent.fits lockId lock found)
  obtain ⟨rfl, sums⟩ := claimSchedules_eq_some loop
  have nothingLeft := remaining_claimed_of_due payable.due
  have whole : amount.toNat = remaining lock.schedules := by
    rw [nothingLeft, U256.toNat_zero] at sums
    omega
  have nonzero : 0 < amount.toNat := by
    rw [whole]
    exact Nat.pos_of_ne_zero payable.left
  have enough := solvent.covers found
  obtain ⟨e', answered⟩ :
      ∃ e', answer (InteractErc20.transfer lock.tokenHash lock.recipient amount) w.outside e' :=
    full.exists_transfer (solvent.room lock.tokenHash lock.recipient) (by rw [whole]; exact enough)
  obtain ⟨w', run⟩ : ∃ w', Runs (Quiet answer) ((Call.claim lockId).program context) w () w' :=
    exists_claim solvent.represents solvent.sound solvent.listed solvent.unpaused found rfl loop
      nonzero answered
  obtain ⟨book', requests, events, change, represents', log, answers⟩ :=
    change_of_runs solvent.represents run
  have standard : ∀ token, StandardToken package token answer (fun e e' => e' = e)
      (fun e => balances e token) := fun token =>
    full.toStandardErc20.standardToken token fun same => by rw [same]
  have sound' : FewLocks (w.log ++ events) → Sound book' (w.log ++ events) :=
    fun few => solvent.sound.change few change
  have listed' := solvent.listed.change solvent.sound change
  have fits' := solvent.fits.change change
  have backed' := fun token => (solvent.backed token).change (standard token) change answers
  cases change with
  | @claim _ lock' amount' _ access paid _ stored =>
      obtain rfl : lock = lock' := Option.some.inj (found.symm.trans access.found)
      rw [show remaining (lock.claimed context.blocktime).schedules = 0 from nothingLeft,
        Nat.add_zero] at paid
      have few : FewLocks w'.log := by
        rw [log, FewLocks, locksIn_append]
        change (locksIn w.log ++ []).length < _
        rw [List.append_nil]
        exact solvent.few
      have unpaused' : book'.paused = false := by
        cases stored <;> exact solvent.unpaused
      have moved := full.transfer (answers_singleton.mp answers)
      rw [paid] at moved
      refine ⟨book', w', run, ⟨represents', ?_, few, listed', fits', unpaused', backed', ?_⟩,
        ?_, moved⟩
      · rw [log] at few ⊢
        exact sound' few
      · intro token account
        have room := solvent.room token account
        have here := moved token (.contract package)
        have there := moved token (.account account)
        by_cases inToken : token = lock.tokenHash
        · simp only [inToken, true_and, reduceCtorEq, if_true, if_false, add_zero]
            at here there room ⊢
          split at there <;> omega
        · simp only [inToken, false_and, if_false, add_zero] at here there
          omega
      · intro other
        rw [stored.lookup]
        simp only [VestInfo.claimed, nothingLeft, context, if_true]

theorem Solvent.claimAll (full : FullErc20 package answer balances allowances)
    {due : List (UInt64 × VestInfo)} (distinct : (due.map Prod.fst).Nodup)
    (solvent : Solvent package balances book w)
    (live : ∀ entry ∈ due, book.lock entry.1 = some entry.2 ∧ Payable timestamp entry.2) :
    ∃ more book' w', VestHistory answer drift timestamp w more timestamp w' ∧
      calls more = due.map (claimBy timestamp) ∧ Solvent package balances book' w' ∧
      (∀ lockId, book'.entries.lookup lockId =
        if lockId ∈ due.map Prod.fst then some none else book.entries.lookup lockId) ∧
      ∀ token account, balances w'.outside token (.account account) =
        balances w.outside token (.account account) +
          (due.map fun entry => dueTo token account entry.2).sum := by
  induction due generalizing book w with
  | nil => exact ⟨[], book, w, .start, rfl, solvent, by simp, by simp⟩
  | cons head due ih =>
      obtain ⟨lockId, lock⟩ := head
      obtain ⟨notIn, distinct'⟩ := List.nodup_cons.mp distinct
      obtain ⟨found, payable⟩ := live (lockId, lock) List.mem_cons_self
      obtain ⟨between, u, run, solventU, cleared, moved⟩ := solvent.claim full found payable
      have live' : ∀ entry ∈ due,
          between.lock entry.1 = some entry.2 ∧ Payable timestamp entry.2 := by
        intro entry member
        obtain ⟨foundEntry, payableEntry⟩ := live entry (List.mem_cons_of_mem _ member)
        have different : entry.1 ≠ lockId := by
          intro same
          exact notIn (List.mem_map.mpr ⟨entry, member, same⟩)
        refine ⟨?_, payableEntry⟩
        rw [Book.lock, cleared, if_neg different]
        exact foundEntry
      obtain ⟨more, book', w', onward, made, solvent', cleared', balance⟩ :=
        ih distinct' solventU live'
      let context : Context := { caller := lock.recipient, blocktime := timestamp }
      have called : VestHistory answer drift timestamp w
          [{ context, entry := Call.claim lockId, before := w, after := u }] timestamp u :=
        .call context (Call.claim lockId) .start (UInt64.le_refl _) trivial run
      refine ⟨_, book', w', called.trans onward, ?_, solvent', ?_, ?_⟩
      · rw [calls_append, made]
        rfl
      · intro other
        rw [cleared', cleared]
        simp only [List.map_cons, List.mem_cons]
        by_cases listed : other ∈ due.map Prod.fst
        · simp only [listed, or_true, if_true]
        · simp only [listed, or_false, if_false]
      · intro token account
        have received := moved token (.account account)
        simp only [reduceCtorEq, and_false, if_false, add_zero, Address.account.injEq]
          at received
        rw [balance, List.map_cons, List.sum_cons, dueTo]
        simp only [eq_comm (a := lock.tokenHash), eq_comm (a := lock.recipient)]
        split at received <;> rename_i here
        · rw [if_pos here]
          omega
        · rw [if_neg here]
          omega

variable {admin : AccountHash} {paused : Bool} {start now : UInt64} {first : VestWorld E}
  {steps : List (Step Context Call Storage E Event)}

/-- Others than the contract leave it what it has and keep the supply. -/
structure Harmless (package : ContractPackageHash) (supply : Nat) (drift : E → E → Prop)
    (balances : E → Balances) : Prop where
  keeps : ∀ {e e'}, drift e e' → ∀ token,
    balances e token (.contract package) ≤ balances e' token (.contract package)
  supply : ∀ {e e'}, drift e e' → SupplyWithin supply (balances e) →
    SupplyWithin supply (balances e')

/-- The locks are backed in every token at once, and the supply is kept. -/
private theorem backed_everywhere {supply : Nat}
    (standard : StandardErc20 package answer balances)
    (harmless : Harmless package supply drift balances) :
    Law answer drift fun book e _ => SupplyWithin supply (balances e) ∧
      ∀ token, Backed package token (fun e => balances e token) book e where
  drift := fun holds drifts => ⟨harmless.supply drifts holds.1, fun token =>
    ⟨(holds.2 token).self, le_trans (holds.2 token).covered (harmless.keeps drifts token)⟩⟩
  change := fun _ holds change answered => ⟨holds.1.answers standard answered, fun token =>
    (holds.2 token).change
      (standard.standardToken token fun drifts => harmless.keeps drifts token) change answered⟩

/-- In a state of a run of an open contract, let locks with something left be chosen in
any order, at a time when all of it is due.  Then their recipients can claim in this
order: every claim goes through, every recipient receives what remained of its locks, and
these locks are cleared and no others touched.  If none was left out, the contract owes
nothing afterwards. -/
theorem locks_paid_out (full : FullErc20 package answer balances allowances)
    (harmless : Harmless package (2 ^ 256 - 1) drift balances)
    (initialised : first.storage = .initialised admin paused package) (empty : first.log = [])
    (supplied : SupplyWithin (2 ^ 256 - 1) (balances first.outside))
    (history : VestHistory answer drift start first steps now w) (few : FewLocks w.log)
    (unpaused : w.storage.paused = false) (le : now ≤ timestamp)
    {due : List (UInt64 × VestInfo)} (distinct : (due.map Prod.fst).Nodup)
    (live : ∀ entry ∈ due, storedLock entry.1 w.storage = some entry.2 ∧
      Payable timestamp entry.2) :
    ∃ more w', VestHistory answer drift now w more timestamp w' ∧
      calls more = due.map (claimBy timestamp) ∧
      (∀ token account, balances w'.outside token (.account account) =
        balances w.outside token (.account account) +
          (due.map fun entry => dueTo token account entry.2).sum) ∧
      (∀ lockId, storedBytes lockId w'.storage =
        if lockId ∈ due.map Prod.fst then some VestInfo.clearEntry
        else storedBytes lockId w.storage) ∧
      ((∀ lockId lock, storedLock lockId w.storage = some lock →
          remaining lock.schedules ≠ 0 → lockId ∈ due.map Prod.fst) →
        ∀ token, owedIn token w'.storage = 0) := by
  have represents : Represents first.storage (.empty admin paused package) := by
    rw [initialised]
    exact represents_initialised admin paused package
  have sound : Sound (.empty admin paused package) first.log := by
    rw [empty]
    exact sound_empty
  have backed : ∀ token, Backed package token (fun e => balances e token)
      (.empty admin paused package) first.outside := fun token => ⟨rfl, Nat.zero_le _⟩
  have law := listed_law.and (backed_everywhere full.toStandardErc20 harmless)
  obtain ⟨book, representsW, soundW, ⟨listed, fits⟩, suppliedW, backedW⟩ :=
    law.onward represents sound ⟨listed_empty, supplied, backed⟩ history few
  have room : ∀ token account, balances w.outside token (.contract package) +
      balances w.outside token (.account account) < 2 ^ 256 := by
    intro token account
    have pair : balances w.outside token (.contract package) +
        balances w.outside token (.account account) ≤ 2 ^ 256 - 1 :=
      suppliedW.pair (by simp)
    omega
  have solvent : Solvent package balances book w := {
    represents := representsW
    sound := soundW
    few
    listed
    fits
    unpaused := representsW.paused.symm.trans unpaused
    backed := backedW
    room }
  simp only [representsW.storedLock_eq] at live
  obtain ⟨more, book', w', onward, made, solvent', cleared, balance⟩ :=
    solvent.claimAll full distinct live
  have waited : VestHistory answer drift now w [] timestamp w := History.start.wait le
  refine ⟨more, w', waited.trans onward, made, balance, ?_, ?_⟩
  · intro lockId
    rw [solvent'.represents.storedBytes_eq, representsW.storedBytes_eq, cleared]
    split <;> rfl
  · intro complete token
    rw [owedIn_eq solvent'.represents]
    have nothing : ∀ lockId entry, book'.entries.lookup lockId = some entry →
        owed token entry = 0 := by
      intro lockId entry stored
      rw [cleared] at stored
      split at stored
      · cases stored
        rfl
      · rename_i untouched
        cases entry with
        | none => rfl
        | some lock =>
            have found : storedLock lockId w.storage = some lock := by
              rw [representsW.storedLock_eq, Book.lock_eq_some]
              exact stored
            have empty : remaining lock.schedules = 0 := by
              by_contra left
              exact untouched (complete lockId lock found left)
            simp only [owed, empty, ite_self]
    rw [FiniteStore.total_congr nothing]
    simp [FiniteStore.total]

end Claims

section Sample

open Sample Staking.Sample

/-- Two stakers with a hundred of every token. -/
def twoPurses : Erc20Ledger where
  balance := fun _ holder =>
    (if holder = .account (staker 1) then 100 else 0) +
      if holder = .account (staker 2) then 100 else 0
  allowance := fun _ _ _ => 100

private theorem supply_twoPurses : SupplyWithin (2 ^ 256 - 1) twoPurses.balance := by
  intro token holders
  have one : (∑ holder ∈ holders,
      if holder = .account (staker 1) then 100 else 0) ≤ 100 := by
    rw [Finset.sum_ite_eq']
    split <;> omega
  have other : (∑ holder ∈ holders,
      if holder = .account (staker 2) then 100 else 0) ≤ 100 := by
    rw [Finset.sum_ite_eq']
    split <;> omega
  simp only [twoPurses, Finset.sum_add_distrib]
  omega

def furnished : VestWorld Erc20Ledger where
  storage := .initialised owner false package
  outside := twoPurses
  log := []

def bothLocked : VestWorld Erc20Ledger :=
  after
    [(10, staker 1, .lock tokenA (units 30) 20 50 3),
      (10, staker 2, .lock tokenA (units 20) 20 50 2)]
    0 furnished (by decide +kernel)

def lockOfFirst : VestInfo where
  id := 0
  lockTime := 10
  recipient := staker 1
  tokenHash := tokenA
  schedules := [⟨30, units 10⟩, ⟨80, units 10⟩, ⟨130, units 10⟩]

def lockOfSecond : VestInfo where
  id := 1
  lockTime := 10
  recipient := staker 2
  tokenHash := tokenA
  schedules := [⟨30, units 10⟩, ⟨80, units 10⟩]

def latest : UInt64 := 18446744073709551615

theorem locks_paid_out_bothLocked :
    ∃ w' : VestWorld Erc20Ledger, w'.outside.balance tokenA (.account (staker 1)) = 100 ∧
      w'.outside.balance tokenA (.account (staker 2)) = 100 := by
  obtain ⟨steps, now, history⟩ :
      ∃ steps now, VestHistory answer drift 0 furnished steps now bothLocked :=
    history_after _
  have harmless : Harmless package (2 ^ 256 - 1) drift Erc20Ledger.balance := by
    constructor
    · rintro e _ rfl token
      exact le_refl _
    · rintro e _ rfl within
      exact within
  have le : now ≤ latest := by
    rw [UInt64.le_iff_toNat_le]
    exact Nat.le_of_lt_succ now.toNat_lt
  -- the later lock comes first
  have live : ∀ entry ∈ [(1, lockOfSecond), (0, lockOfFirst)],
      storedLock entry.1 bothLocked.storage = some entry.2 ∧ Payable latest entry.2 := by
    intro entry member
    rcases List.mem_pair.mp member with rfl | rfl
    · exact ⟨by decide +kernel, by decide +kernel, by decide +kernel⟩
    · exact ⟨by decide +kernel, by decide +kernel, by decide +kernel⟩
  obtain ⟨more, w', -, -, balance, -⟩ := locks_paid_out (Erc20Ledger.full package) harmless rfl
    rfl supply_twoPurses history (by decide +kernel) (by decide +kernel) le (by decide) live
  refine ⟨w', ?_, ?_⟩
  · rw [balance]
    decide +kernel
  · rw [balance]
    decide +kernel

end Sample

end CasperContracts.Vesting
