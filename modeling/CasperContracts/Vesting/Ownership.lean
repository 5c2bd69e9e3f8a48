import CasperContracts.Vesting.Run

/-!
# Who can touch a lock

A call by another account than the recipient leaves the stored bytes of a live
lock as they are and pays nothing out of it; a claim pays only the recipient;
and an entry that has been cleared is never written again.
-/

namespace CasperContracts.Vesting

open CasperContracts.Basis Host Prog

section Change

variable {context : Context} {book book' : Book} {call : Call} {requests : List TokenCall}
  {events log : List Event} {lockId : UInt64} {lock : VestInfo}

theorem Change.untouched (change : Change context book call requests events book')
    (sound : Sound book log) (found : book.lock lockId = some lock)
    (other : lock.recipient ≠ context.caller) :
    book'.entries.lookup lockId = book.entries.lookup lockId ∧
      ∀ event ∈ events, event.lockId ≠ lockId := by
  cases change.entry lockId with
  | untouched same others => exact ⟨same, others⟩
  | created next =>
      rw [next, Book.lock, sound.vacant] at found
      cases found
  | touched foundToo owned =>
      rw [found, Option.some.injEq] at foundToo
      exact absurd (foundToo ▸ owned) other

theorem Change.cleared (change : Change context book call requests events book')
    (sound : Sound book log) (cleared : book.entries.lookup lockId = some none) :
    book'.entries.lookup lockId = some none := by
  cases change.entry lockId with
  | untouched same => rw [same, cleared]
  | created next =>
      rw [next, sound.vacant] at cleared
      cases cleared
  | touched found =>
      rw [Book.lock_eq_some, cleared] at found
      cases found

theorem Change.claim_pays (change : Change context book (.claim lockId) requests events book') :
    ∃ lock amount, book.lock lockId = some lock ∧ lock.recipient = context.caller ∧
      requests = [InteractErc20.transfer lock.tokenHash lock.recipient amount] := by
  cases change with
  | @claim _ lock amount _ access =>
      exact ⟨lock, amount, access.found, access.owned, by rw [access.owned]⟩

end Change

section Reached

variable {E : Type} {answer : TokenCall → E → E → Prop} {drift : E → E → Prop}

private theorem cleared_law (lockId : UInt64) :
    Law answer drift fun book _ _ => book.entries.lookup lockId = some none where
  drift := fun cleared _ => cleared
  change := fun sound cleared change _ => change.cleared sound cleared

private theorem storedBytes_eq_nil {storage : Storage} {book : Book} {lockId : UInt64}
    (represents : Represents storage book) :
    storedBytes lockId storage = some [] ↔ book.entries.lookup lockId = some none := by
  rw [represents.storedBytes_eq, Option.map_eq_some_iff]
  constructor
  · intro given
    obtain ⟨entry, found, empty⟩ := given
    cases entry with
    | none => exact found
    | some info => exact absurd empty info.pack_ne_nil
  · intro cleared
    exact ⟨none, cleared, rfl⟩

variable {start now : UInt64} {first w w' : VestWorld E} {context : Context} {entry : Call}
  {steps : List (Step Context Call Storage E Event)}

/-- In every state of a run: a call by another account than the recipient of a live
lock leaves its bytes as they are and pays nothing out of it, a claim sends tokens
to the recipient of the lock and to nobody else, and an entry that is empty stays
empty. -/
theorem recipient_only (fresh : Uninitialised first.storage) (empty : first.log = [])
    (history : VestHistory answer drift start first steps now w)
    (success : Runs (Quiet answer) (entry.program context) w () w') (few : FewLocks w'.log) :
    (∀ lockId lock, storedLock lockId w.storage = some lock →
      lock.recipient ≠ context.caller →
        storedBytes lockId w'.storage = storedBytes lockId w.storage ∧
        ∀ payout, .claimed payout ∈ w'.log.drop w.log.length → payout.lockId ≠ lockId) ∧
    (∀ lockId, entry = .claim lockId → ∃ lock amount,
      storedLock lockId w.storage = some lock ∧ lock.recipient = context.caller ∧
      Answers answer [.transfer lock.tokenHash (.account lock.recipient) amount] w.outside
        w'.outside) ∧
    ∀ lockId, storedBytes lockId w.storage = some [] →
      ∀ more later u, VestHistory answer drift now w more later u → FewLocks u.log →
        storedBytes lockId u.storage = some [] := by
  obtain ⟨new, log⟩ := success.log_extends
  rw [log] at few
  rcases sound_law.reached (fun _ _ _ _ => trivial) fresh empty history few.earlier with
    ⟨still, -⟩ | ⟨book, represents, sound, -⟩
  · refine ⟨?_, ?_, ?_⟩
    · intro lockId lock stored
      rw [storedLock_uninitialised still] at stored
      cases stored
    · intro lockId isClaim
      subst isClaim
      exact absurd success (not_claim_uninitialised still)
    · intro lockId cleared
      rw [storedBytes_uninitialised still] at cleared
      cases cleared
  · obtain ⟨book', requests, events, change, represents', extended, answered⟩ :=
      change_of_runs represents success
    refine ⟨?_, ?_, ?_⟩
    · intro lockId lock stored other
      rw [represents.storedLock_eq] at stored
      obtain ⟨same, others⟩ := change.untouched sound stored other
      rw [represents'.storedBytes_eq, represents.storedBytes_eq, same, extended,
        List.drop_left]
      exact ⟨rfl, fun payout member => others _ member⟩
    · intro lockId isClaim
      subst isClaim
      obtain ⟨lock, amount, found, owned, rfl⟩ := change.claim_pays
      rw [represents.storedLock_eq]
      exact ⟨lock, amount, found, owned, answered⟩
    · intro lockId cleared more later u onward fewLater
      obtain ⟨bookU, representsU, -, clearedU⟩ := (cleared_law lockId).onward represents sound
        ((storedBytes_eq_nil represents).mp cleared) onward fewLater
      exact (storedBytes_eq_nil representsU).mpr clearedU

end Reached

section Sample

open Sample Staking.Sample

def halfDue : VestWorld Erc20Ledger :=
  after [setUp, (10, staker 1, .lock tokenA (units 20) 90 50 2)] 0 opening
    (by decide +kernel)

def pausedByAdmin : VestWorld Erc20Ledger :=
  after [(100, owner, .setPauseContract)] 10 halfDue (by decide +kernel)

theorem recipient_only_pausedByAdmin :
    storedBytes 0 pausedByAdmin.storage = storedBytes 0 halfDue.storage := by
  obtain ⟨steps, later, history⟩ :
      ∃ steps later, VestHistory answer drift 0 opening steps later halfDue :=
    history_after _
  have pauses : Runs (Quiet answer)
      (Call.program { caller := owner, blocktime := 100 } .setPauseContract) halfDue ()
      pausedByAdmin := runs_after _
  have alone := (recipient_only ⟨owner, false, rfl⟩ rfl history pauses (by decide +kernel)).1
  exact (alone 0 ((storedLock 0 halfDue.storage).get (by decide +kernel))
    (Option.some_get _).symm (by decide +kernel)).1

end Sample

end CasperContracts.Vesting
